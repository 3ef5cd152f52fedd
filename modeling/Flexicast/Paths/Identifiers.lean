import Flexicast.Paths.Bounded
import Flexicast.Stream.RangeBuf

/-! Connection identifiers of `cid.rs`, which every path has its own of. -/

namespace Flexicast

/-- The address of a socket. -/
structure SocketAddr where
  ip : Bytes
  port : Nat
  deriving DecidableEq

/-- A local address and one of the peer. -/
abbrev FourTuple := SocketAddr × SocketAddr

/-- A connection identifier. -/
abbrev ConnectionId := Bytes

/-- A connection identifier with its metadata. -/
structure ConnectionIdEntry where
  cid : ConnectionId
  seq : Nat
  /-- Its reset token, which initial ones may lack. -/
  resetToken : Option Nat
  networkPath : Option FourTuple
  deriving DecidableEq

instance : Identifiable ConnectionIdEntry := ⟨ConnectionIdEntry.seq⟩

/-- The connection identifiers of a path. -/
structure PathConnectionIdentifiers where
  pathId : Nat
  /-- Identifiers that the peer provided. -/
  dcids : BoundedNonEmptyVecDeque ConnectionIdEntry
  /-- Identifiers that were provided to the peer. -/
  scids : BoundedNonEmptyVecDeque ConnectionIdEntry
  /-- Retired identifiers of the peer that it still has to be told about. -/
  retireDcidSeqs : BoundedConnectionIdSeqSet
  /-- The largest "Retire Prior To" of the peer that was applied. -/
  largestPeerRetirePriorTo : Nat
  /-- The largest sequence number of the peer. -/
  largestDestinationSeq : Nat
  nextScidSeq : Nat
  retirePriorTo : Nat
  /-- How many identifiers the peer allows. -/
  sourceConnIdLimit : Nat
  /-- Whether the path is being closed. -/
  closing : Bool
  /-- Whether there is an identifier of the peer. -/
  initializedDestinationConnectionId : Bool
  /-- Whether there is an identifier for the peer. -/
  initializedSourceConnectionId : Bool

instance : Identifiable PathConnectionIdentifiers := ⟨PathConnectionIdentifiers.pathId⟩

/-- How many retired identifiers may wait, as a multiple of the active ones. -/
def retiredConnIdLimitMultiplier : Nat := 3

/-- The largest index of a collection. -/
def usizeMax : Nat := 18446744073709551615

namespace PathConnectionIdentifiers

/-- The identifiers of a new path, of which one side has its first one. -/
def newWithPathId (pathId destinationConnIdLimit sourceConnIdLimit : Nat)
    (initialScid initialDcid : Option ConnectionId) (networkPath : Option FourTuple) (resetToken : Option Nat) :
    PathConnectionIdentifiers :=
  let destinationConnIdLimit := max destinationConnIdLimit 2
  let sourceConnIdLimit := max sourceConnIdLimit 2
  -- The token is dropped without an identifier for the peer, before the one of the peer takes it.
  let resetToken := if initialScid.isSome then resetToken else none
  { pathId := pathId
    scids := .new (2 * sourceConnIdLimit - 1) ⟨initialScid.getD [], 0, resetToken, networkPath⟩
    dcids := .new destinationConnIdLimit
      ⟨initialDcid.getD [], 0, if initialDcid.isSome then resetToken else none, networkPath⟩
    retireDcidSeqs := .new (destinationConnIdLimit * retiredConnIdLimitMultiplier)
    largestPeerRetirePriorTo := 0
    largestDestinationSeq := 0
    nextScidSeq := if initialScid.isSome then 1 else 0
    retirePriorTo := 0
    sourceConnIdLimit := sourceConnIdLimit
    closing := false
    initializedDestinationConnectionId := initialDcid.isSome
    initializedSourceConnectionId := initialScid.isSome }

/-- Sets how many identifiers the peer allows. -/
def setSourceConnIdLimit (self : PathConnectionIdentifiers) (v : Nat) : PathConnectionIdentifiers :=
  let v := min v (usizeMax / 2)
  if 2 ≤ v then { self with sourceConnIdLimit := v, scids := self.scids.resize (2 * v - 1) } else self

/-- The least identifier for the peer that is not to be retired. -/
def lowestUsableScidSeq (self : PathConnectionIdentifiers) : Except PathError Nat :=
  match ((self.scids.inner.map ConnectionIdEntry.seq).filter fun seq => self.retirePriorTo ≤ seq).min? with
  | some seq => .ok seq
  | none => .error .invalidState

/-- Sets the first identifier of the peer. -/
def setInitialDcid (self : PathConnectionIdentifiers) (cid : ConnectionId) (seq : Nat) (resetToken : Option Nat)
    (networkPath : Option FourTuple) : PathConnectionIdentifiers :=
  { self with
    dcids := self.dcids.clearAndInsert ⟨cid, seq, resetToken, networkPath⟩
    initializedDestinationConnectionId := true }

/-- Sets the first identifier for the peer. -/
def setInitialScid (self : PathConnectionIdentifiers) (cid : ConnectionId) (resetToken : Option Nat)
    (networkPath : Option FourTuple) : PathConnectionIdentifiers :=
  { self with
    scids := self.scids.clearAndInsert ⟨cid, 0, resetToken, networkPath⟩
    initializedSourceConnectionId := true }

/-- Asks the peer to retire an identifier when there are as many as it allows. -/
def makeRoom (self : PathConnectionIdentifiers) (retireIfNeeded : Bool) :
    Except PathError PathConnectionIdentifiers :=
  if self.sourceConnIdLimit ≤ self.scids.len then
    if retireIfNeeded then self.lowestUsableScidSeq.map fun lowest => { self with retirePriorTo := lowest + 1 }
    else .error .idLimit
  else .ok self

/-- Adds an identifier for the peer; returns whether it is new, and its sequence number. -/
def newScid (self : PathConnectionIdentifiers) (cid : ConnectionId) (resetToken : Option Nat)
    (networkPath : Option FourTuple) (retireIfNeeded : Bool) :
    Except PathError (Bool × Nat) × PathConnectionIdentifiers :=
  if self.initializedSourceConnectionId = false then
    (.ok (true, 0), self.setInitialScid cid resetToken networkPath)
  else
    match self.makeRoom retireIfNeeded with
    | .error error => (.error error, self)
    | .ok self =>
      let seq := self.nextScidSeq
      if resetToken.isNone && seq != 0 then (.error .invalidState, self)
      else
        match self.scids.inner.find? fun e => e.cid == cid with
        | some e => if e.resetToken = resetToken then (.ok (false, e.seq), self) else (.error .invalidState, self)
        | none =>
          match self.scids.insert ⟨cid, seq, resetToken, networkPath⟩ with
          | .error error => (.error error, self)
          | .ok scids => (.ok (true, seq), { self with scids := scids, nextScidSeq := seq + 1 })

/-- Whether a sequence number of the peer is to be told retired, or was told. -/
def markRetireDcidSeq (self : PathConnectionIdentifiers) (dcidSeq : Nat) (retire : Bool) :
    Except PathError Unit × PathConnectionIdentifiers :=
  if retire then
    match self.retireDcidSeqs.insert dcidSeq with
    | .error error => (.error error, self)
    | .ok set => (.ok (), { self with retireDcidSeqs := set })
  else (.ok (), { self with retireDcidSeqs := self.retireDcidSeqs.remove dcidSeq })

/-- Marks removed identifiers as retired, up to the first that finds no room; returns the ones that were in use. -/
def retireAll : List ConnectionIdEntry → BoundedConnectionIdSeqSet →
    Option PathError × List (Nat × FourTuple) × BoundedConnectionIdSeqSet
  | [], retired => (none, [], retired)
  | e :: rest, retired =>
    let inUse := (e.networkPath.map fun nw => (e.seq, nw)).toList
    match retired.insert e.seq with
    | .error error => (some error, inUse, retired)
    | .ok retired =>
      match retireAll rest retired with
      | (error, paths, retired) => (error, inUse ++ paths, retired)

/-- Adds a new identifier of the peer behind the ones that are left. -/
def addDcid (self : PathConnectionIdentifiers) (entry : ConnectionIdEntry) (queueErr : Option PathError) :
    Except PathError Unit × PathConnectionIdentifiers :=
  match self.dcids.insert entry with
  | .error error => (.error error, self)
  | .ok dcids =>
    match queueErr with
    | some error => (.error error, { self with dcids := dcids })
    | none => (.ok (), { self with dcids := dcids })

/-- Adds an identifier of the peer; also returns which retired ones were in use.
The search finds where the sequence numbers of a queue reach a bound. -/
def newDcid (search : List Nat → Nat → Nat) (self : PathConnectionIdentifiers) (cid : ConnectionId)
    (seq resetToken retirePriorTo : Nat) :
    Except PathError Unit × List (Nat × FourTuple) × PathConnectionIdentifiers :=
  if self.initializedDestinationConnectionId = false then
    (.ok (), [], self.setInitialDcid cid seq (some resetToken) none)
  else
    match self.dcids.inner.find? fun e => e.cid == cid || e.seq == seq with
    | some e =>
      if e.cid = cid ∧ e.seq = seq ∧ e.resetToken = some resetToken then (.ok (), [], self)
      else (.error .invalidFrame, [], self)
    | none =>
      if seq < retirePriorTo then (.error .invalidFrame, [], self)
      else if seq < self.largestPeerRetirePriorTo then
        match self.markRetireDcidSeq seq true with
        | (result, self) => (result, [], self)
      else
        let self := { self with largestDestinationSeq := max self.largestDestinationSeq seq }
        let entry : ConnectionIdEntry := ⟨cid, seq, some resetToken, none⟩
        if self.largestPeerRetirePriorTo < retirePriorTo then
          if entry.seq < retirePriorTo then (.error .outOfIdentifiers, [], self)
          else
            let index := search (self.dcids.inner.map ConnectionIdEntry.seq) retirePriorTo
            match retireAll (self.dcids.inner.take index) self.retireDcidSeqs with
            | (queueErr, paths, retired) =>
              let self := { self with
                retireDcidSeqs := retired
                dcids := self.dcids.keep (self.dcids.inner.drop index) (List.drop_sublist _ _)
                largestPeerRetirePriorTo := retirePriorTo }
              match self.addDcid entry queueErr with
              | (result, self) => (result, paths, self)
        else
          match self.addDcid entry none with
          | (result, self) => (result, [], self)

/-- Retires an identifier for the peer, as it asks for in a packet with some destination. -/
def retireScid (self : PathConnectionIdentifiers) (seq : Nat) (pktDcid : ConnectionId) :
    Except PathError (Option ConnectionIdEntry) × PathConnectionIdentifiers :=
  if self.nextScidSeq ≤ seq then (.error .invalidState, self)
  else
    match self.scids.remove seq self.closing with
    | .error error => (.error error, self)
    | .ok (none, scids) => (.ok none, { self with scids := scids })
    | .ok (some e, scids) =>
      let self := { self with scids := scids }
      if e.cid = pktDcid then (.error .invalidState, self)
      else
        -- Retiring an identifier may raise the bound to advertise.
        match self.lowestUsableScidSeq with
        | .error error => (.error error, self)
        | .ok lowest => (.ok (some e), { self with retirePriorTo := lowest })

/-- Retires an identifier of the peer; returns the addresses it was in use for. -/
def retireDcid (self : PathConnectionIdentifiers) (seq : Nat) :
    Except PathError (Option FourTuple) × PathConnectionIdentifiers :=
  match self.dcids.remove seq self.closing with
  | .error error => (.error error, self)
  | .ok (some e, dcids) =>
    match { self with dcids := dcids }.markRetireDcidSeq seq true with
    | (.error error, self) => (.error error, self)
    | (.ok _, self) => (.ok e.networkPath, self)
  | .ok (none, dcids) =>
    if self.closing then (.ok none, { self with dcids := dcids })
    else (.error .invalidState, { self with dcids := dcids })

end PathConnectionIdentifiers

/-- The connection identifiers of all paths. -/
structure ConnectionIdentifiers where
  pcids : BoundedNonEmptyVecDeque PathConnectionIdentifiers
  /-- Identifiers that the peer still has to be told about. -/
  advertiseNewScidSeqs : List (Nat × Nat)
  /-- Retired identifiers that the application still has to be told about. -/
  retiredScids : List (Nat × ConnectionId)
  /-- How many identifiers the peer allows. -/
  sourceConnIdLimit : Nat
  /-- How many identifiers are allowed to the peer. -/
  destinationConnIdLimit : Nat
  closedPathId : List Nat
  sparePathIds : List Nat
  /-- The largest path allowed to the peer. -/
  localMaxPathId : Nat
  /-- The largest path that the peer allows. -/
  remoteMaxPathId : Nat
  largestPathId : Nat
  advertiseLocalMaxPathId : Bool
  /-- Whether identifiers for the peer are empty. -/
  zeroLengthScid : Bool
  /-- Whether identifiers of the peer are empty. -/
  zeroLengthDcid : Bool

namespace ConnectionIdentifiers

/-- The identifiers of a new connection. -/
def new (destinationConnIdLimit : Nat) (initialScid : ConnectionId) (networkPath : FourTuple)
    (resetToken : Option Nat) : ConnectionIdentifiers where
  -- Most connections have one path.
  pcids := .new 1 (.newWithPathId 0 (max destinationConnIdLimit 2) 2 (some initialScid) none (some networkPath)
    resetToken)
  advertiseNewScidSeqs := []
  retiredScids := []
  sourceConnIdLimit := 2
  destinationConnIdLimit := max destinationConnIdLimit 2
  closedPathId := []
  sparePathIds := []
  localMaxPathId := 0
  remoteMaxPathId := 0
  largestPathId := 0
  advertiseLocalMaxPathId := false
  zeroLengthScid := initialScid.isEmpty
  zeroLengthDcid := false

variable (self : ConnectionIdentifiers)

/-- The identifiers of a path. -/
def getPcids (pathId : Nat) : Option PathConnectionIdentifiers := self.pcids.get pathId

/-- The identifiers with those of a path replaced. -/
def setPcids (pcid : PathConnectionIdentifiers) : ConnectionIdentifiers :=
  { self with pcids := self.pcids.replace pcid }

/-- The largest path of the connection. -/
def maxPathId : Nat := min self.localMaxPathId self.remoteMaxPathId

/-- Sets how many identifiers the peer allows, on each path. -/
def setSourceConnIdLimit (v : Nat) : ConnectionIdentifiers :=
  let v := min v (usizeMax / 2)
  if 2 ≤ v then
    { self with
      sourceConnIdLimit := v
      pcids := self.pcids.mapValues (fun pcid => pcid.setSourceConnIdLimit v) fun pcid => by
        show (pcid.setSourceConnIdLimit v).pathId = pcid.pathId
        unfold PathConnectionIdentifiers.setSourceConnIdLimit
        dsimp only
        split <;> rfl }
  else self

/-- Makes room for all paths of the connection. -/
def maybeResizePcids : ConnectionIdentifiers := { self with pcids := self.pcids.resize (1 + self.maxPathId) }

/-- Raises the largest path allowed to the peer. -/
def setLocalMaxPathId (v : Nat) (advertise : Bool) : ConnectionIdentifiers :=
  if self.localMaxPathId < v then
    maybeResizePcids { self with
      localMaxPathId := v, advertiseLocalMaxPathId := self.advertiseLocalMaxPathId || advertise }
  else self

/-- Raises the largest path that the peer allows. -/
def setRemoteMaxPathId (v : Nat) : ConnectionIdentifiers :=
  if self.remoteMaxPathId < v then maybeResizePcids { self with remoteMaxPathId := v } else self

/-- The least path that can be used. -/
def lowestSparePathId : Option Nat := self.sparePathIds.min?

/-- Takes the least path that can be used. -/
def consumeLowestSparePathId : ConnectionIdentifiers :=
  match self.lowestSparePathId with
  | some pathId => { self with sparePathIds := self.sparePathIds.erase pathId }
  | none => self

/-- An identifier of the peer. -/
def getDcid (pathId seq : Nat) : Except PathError ConnectionIdEntry :=
  match (self.getPcids pathId).bind fun pcid => pcid.dcids.get seq with
  | some e => .ok e
  | none => .error .invalidState

/-- An identifier for the peer. -/
def getScid (pathId seq : Nat) : Except PathError ConnectionIdEntry :=
  match (self.getPcids pathId).bind fun pcid => pcid.scids.get seq with
  | some e => .ok e
  | none => .error .invalidState

/-- Whether an identifier is to be advertised, or was. -/
def markAdvertiseNewScidSeq (pathId scidSeq : Nat) (advertise : Bool) : ConnectionIdentifiers :=
  if advertise then
    if self.advertiseNewScidSeqs.contains (pathId, scidSeq) then self
    else { self with advertiseNewScidSeqs := self.advertiseNewScidSeqs ++ [(pathId, scidSeq)] }
  else { self with advertiseNewScidSeqs := self.advertiseNewScidSeqs.erase (pathId, scidSeq) }

/-- Adds a path that can be used. -/
def addPath (pcid : PathConnectionIdentifiers) : Except PathError Unit × ConnectionIdentifiers :=
  if self.maxPathId < pcid.pathId then (.error .outOfPathId, self)
  else if self.closedPathId.contains pcid.pathId then (.error .outOfPathId, self)
  else
    match self.pcids.insert pcid with
    | .error error => (.error error, self)
    | .ok pcids =>
      (.ok (), { self with
        pcids := pcids
        sparePathIds := pcid.pathId :: self.sparePathIds
        largestPathId := max self.largestPathId pcid.pathId })

/-- Adds an identifier for the peer, on a new path if it has none; returns its sequence number. -/
def newScid (pathId : Nat) (cid : ConnectionId) (resetToken : Option Nat) (advertise : Bool)
    (networkPath : Option FourTuple) (retireIfNeeded : Bool) : Except PathError Nat × ConnectionIdentifiers :=
  if self.zeroLengthScid then (.error .invalidState, self)
  else if resetToken.isNone && pathId != 0 then (.error .invalidState, self)
  else
    match self.getPcids pathId with
    | some pcid =>
      match pcid.newScid cid resetToken networkPath retireIfNeeded with
      | (.error error, pcid) => (.error error, self.setPcids pcid)
      | (.ok (inserted, seq), pcid) =>
        (.ok seq, if inserted then (self.setPcids pcid).markAdvertiseNewScidSeq pathId seq advertise
          else self.setPcids pcid)
    | none =>
      match self.addPath (.newWithPathId pathId self.destinationConnIdLimit self.sourceConnIdLimit (some cid) none
          networkPath resetToken) with
      | (.error error, self) => (.error error, self)
      | (.ok _, self) => (.ok 0, self.markAdvertiseNewScidSeq pathId 0 advertise)

/-- Sets the first identifier of the peer, on the first path. -/
def setInitialDcid (cid : ConnectionId) (resetToken : Option Nat) (networkPath : Option FourTuple) :
    ConnectionIdentifiers :=
  let self := { self with zeroLengthDcid := cid.isEmpty }
  match self.getPcids 0 with
  | some pcid => self.setPcids (pcid.setInitialDcid cid 0 resetToken networkPath)
  | none => self

/-- Adds an identifier of the peer, on a new path if it has none; also returns which retired ones were in use. -/
def newDcid (search : List Nat → Nat → Nat) (pathId : Nat) (cid : ConnectionId)
    (seq resetToken retirePriorTo : Nat) : Except PathError Unit × List (Nat × FourTuple) × ConnectionIdentifiers :=
  if self.zeroLengthDcid then (.error .invalidState, [], self)
  else
    match self.getPcids pathId with
    | some pcid =>
      match pcid.newDcid search cid seq resetToken retirePriorTo with
      | (result, paths, pcid) => (result, paths, self.setPcids pcid)
    | none =>
      match self.addPath (.newWithPathId pathId self.destinationConnIdLimit self.sourceConnIdLimit none (some cid)
          none (some resetToken)) with
      | (result, self) => (result, [], self)

/-- Retires an identifier for the peer; returns the addresses it was in use for. -/
def retireScid (pathId seq : Nat) (pktDcid : ConnectionId) :
    Except PathError (Option FourTuple) × ConnectionIdentifiers :=
  match self.getPcids pathId with
  -- A path that does not exist any more is ignored.
  | none => (.ok none, self)
  | some pcid =>
    match pcid.retireScid seq pktDcid with
    | (.error error, pcid) => (.error error, self.setPcids pcid)
    | (.ok none, pcid) => (.ok none, self.setPcids pcid)
    | (.ok (some e), pcid) =>
      (.ok e.networkPath,
        { self.setPcids pcid with retiredScids := self.retiredScids ++ [(pathId, e.cid)] })

/-- Retires an identifier of the peer; returns the addresses it was in use for. -/
def retireDcid (pathId seq : Nat) : Except PathError (Option FourTuple) × ConnectionIdentifiers :=
  if self.zeroLengthDcid then (.error .invalidState, self)
  else if self.closedPathId.contains pathId then (.ok none, self)
  else
    match self.getPcids pathId with
    | none => (.error .outOfPathId, self)
    | some pcid =>
      match pcid.retireDcid seq with
      | (result, pcid) => (result, self.setPcids pcid)

/-- Whether a sequence number of the peer is to be told retired, or was told. -/
def markRetireDcidSeq (pathId dcidSeq : Nat) (retire : Bool) : Except PathError Unit × ConnectionIdentifiers :=
  match self.getPcids pathId with
  | none => (.error .unavailablePath, self)
  | some pcid =>
    match pcid.markRetireDcidSeq dcidSeq retire with
    | (result, pcid) => (result, self.setPcids pcid)

/-- A frame that tells the peer about an identifier. -/
structure NewConnectionIdFrame where
  /-- The path, unless it is the first one. -/
  pathId : Option Nat
  seqNum : Nat
  /-- The bound below which identifiers are to be retired. -/
  retirePriorTo : Nat
  connId : ConnectionId
  resetToken : Nat
  deriving DecidableEq

/-- The frame about an identifier for the peer. -/
def getPathConnectionIdFrameFor (pathId seqNum : Nat) : Except PathError NewConnectionIdFrame :=
  match self.getPcids pathId with
  | none => .error .outOfPathId
  | some pcid =>
    match pcid.scids.get seqNum with
    | none => .error .invalidState
    | some e =>
      match e.resetToken with
      | none => .error .invalidState
      | some token => .ok ⟨if pathId = 0 then none else some pathId, seqNum, pcid.retirePriorTo, e.cid, token⟩

/-- The next identifier to be advertised. -/
def nextAdvertiseNewScidSeq : Option (Nat × Nat) := self.advertiseNewScidSeqs.head?

/-- A path is being closed. -/
def closingPathId (pathId : Nat) : ConnectionIdentifiers :=
  match self.getPcids pathId with
  | some pcid => self.setPcids { pcid with closing := true }
  | none => self

/-- Removes a path. -/
def removePathId (pathId : Nat) : Except PathError Unit × ConnectionIdentifiers :=
  if self.closedPathId.contains pathId then (.ok (), self)
  else if self.maxPathId < pathId then (.error .pathIdViolation, self)
  else
    match self.pcids.remove pathId false with
    | .error error => (.error error, self)
    | .ok (none, _) => (.ok (), { self with closedPathId := self.closedPathId ++ [pathId] })
    | .ok (some pcid, pcids) =>
      let self := { self with pcids := pcids }
      -- The identifiers of the peer have to find room among the retired ones.
      match PathConnectionIdentifiers.retireAll pcid.dcids.inner pcid.retireDcidSeqs with
      | (some error, _, _) => (.error error, self)
      | (none, _, _) =>
        (.ok (), { self with
          retiredScids := self.retiredScids ++ pcid.scids.inner.map fun e => (pathId, e.cid)
          closedPathId := self.closedPathId ++ [pathId] })

end ConnectionIdentifiers

end Flexicast
