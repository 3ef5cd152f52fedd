import Flexicast.Lib.OrdMap
import Flexicast.Lib.Runs
import Flexicast.Paths.Path

/-! The paths of a connection, and what happens to them. -/

namespace Flexicast

/-- The paths of a connection. -/
structure PathMap where
  /-- The paths, by their internal identifiers. -/
  paths : OrdMap Path
  maxConcurrentPaths : Nat
  /-- Whether the connection is that of a server. -/
  isServer : Bool
  /-- Whether several paths may be active. -/
  multipath : Bool
  /-- The paths that the peer still has to be told to be abandoned. -/
  pathAbandon : List Nat

namespace PathMap

/-- The paths of a new connection, of which the first one is active. -/
def new (initialPath : Path) (maxConcurrentPaths : Nat) (isServer : Bool) : PathMap :=
  ⟨OrdMap.empty.insert 0 { initialPath with state := .active }, maxConcurrentPaths, isServer, false, []⟩

variable (self : PathMap)

/-- A path. -/
def get (pid : Nat) : Except PathError Path :=
  match self.paths.find? pid with
  | some path => .ok path
  | none => .error .invalidState

/-- The paths with one of them changed. -/
def set (pid : Nat) (path : Path) : PathMap := { self with paths := self.paths.insert pid path }

/-- The paths with one of them changed, if it exists. -/
def modify (pid : Nat) (f : Path → Path) : PathMap :=
  match self.paths.find? pid with
  | some path => self.set pid (f path)
  | none => self

/-- The first active path. -/
def getActiveWithPid : Option (Nat × Path) := self.paths.entries.find? fun entry => entry.2.active

/-- The internal identifier of the first active path. -/
def getActivePathId : Except PathError Nat :=
  match self.getActiveWithPid with
  | some (pid, _) => .ok pid
  | none => .error .invalidState

/-- The number of paths. -/
def len : Nat := self.paths.entries.length

/-- The internal identifier of a path with some explicit one. -/
def pidFromPathId (pathId : Nat) : Option Nat :=
  (self.paths.entries.find? fun entry => entry.2.pathId == pathId && (self.multipath || entry.2.active)).map Prod.fst

/-- Makes room for another path by removing one that is not in use. -/
def makeRoomForNewPath : Except PathError PathMap :=
  if self.len < self.maxConcurrentPaths then .ok self
  else
    match self.paths.entries.find? fun entry => entry.2.unused with
    | some (pid, _) => .ok { self with paths := self.paths.erase pid }
    | none => .error .done

/-- The first free internal identifier. -/
def vacant : Nat := ((List.range (self.len + 1)).find? fun pid => !self.paths.contains pid).getD self.len

/-- Adds a path; returns its internal identifier. -/
def insertPath (path : Path) : Except PathError (Nat × PathMap) :=
  match self.makeRoomForNewPath with
  | .error error => .error error
  | .ok self => .ok (self.vacant, self.set self.vacant path)

/-- Whether the peer is to be told that a path is abandoned, or was. -/
def markPathAbandon (pid : Nat) (abandon : Bool) : PathMap :=
  if abandon then { self with pathAbandon := self.pathAbandon ++ [pid] }
  else { self with pathAbandon := self.pathAbandon.filter fun listed => listed != pid }

/-- The path that a response is for. -/
def pendingPath (data : Bytes) : Option (Nat × Path) :=
  self.paths.entries.find? fun entry => entry.2.hasPendingChallenge data

/-- A response was received. -/
def onResponseReceived (data : Bytes) : Except PathError Unit × PathMap :=
  match self.getActivePathId with
  | .error error => (.error error, self)
  | .ok _ =>
    match self.pendingPath data with
    | some (pid, path) => (.ok (), self.set pid (path.onResponseReceived data).2)
    | none => (.ok (), self)

/-- The peer knows that a path is abandoned. -/
def onPathAbandonAcknowledged (abandonPathId : Nat) : PathMap :=
  match self.pidFromPathId abandonPathId with
  | none => self
  | some pid => self.modify pid fun path =>
    match path.state with
    | .closing errorCode => { path with state := .closed errorCode }
    | _ => path

/-- The peer abandons a path. -/
def onPathAbandonReceived (abandonPathId errorCode : Nat) : Except PathError Unit × PathMap :=
  match self.pidFromPathId abandonPathId with
  | none => (.ok (), self)
  | some pid =>
    match self.get pid with
    | .error error => (.error error, self)
    | .ok path =>
      if self.isServer && self.len == 1 then (.error .unavailablePath, self)
      else if path.closed then (.ok (), self)
      else
        match path.setState (.closing errorCode) with
        | .error error => (.error error, self)
        | .ok closing =>
          (.ok (), if path.isClosing then self.set pid closing else (self.set pid closing).markPathAbandon pid true)

/-- The peer was told that a path is abandoned. -/
def onPathAbandonSent (pid : Nat) : Except PathError Unit × PathMap :=
  match self.get pid with
  | .error error => (.error error, self)
  | .ok _ => (.ok (), self.markPathAbandon pid false)

/-- The number of active paths. -/
def countActivePaths : Nat := (self.paths.entries.filter fun entry => entry.2.active).length

/-- A request would close the last active path. -/
def closesLast (pid : Nat) (requested : PathState) : Bool :=
  match requested with
  -- With one active path there is an identifier of it.
  | .closing _ => self.countActivePaths == 1 && self.getActivePathId.toOption == some pid
  | _ => false

/-- The application asks for something on a path. -/
def request (pid : Nat) (request : PathRequest) : Except PathError Unit × PathMap :=
  if self.multipath = false then (.error .invalidState, self)
  else if self.closesLast pid request.requestedState then (.error .noMorePath, self)
  else
    match self.get pid with
    | .error error => (.error error, self)
    | .ok path =>
      match path.setState request.requestedState with
      | .error error => (.error error, self)
      | .ok path =>
        (.ok (), if path.isClosing then (self.set pid path).markPathAbandon pid true else self.set pid path)

/-- Stops the use of the active path, unless several may be. -/
def stopActive : Except PathError PathMap :=
  if self.multipath then .ok self
  else
    match self.getActiveWithPid with
    | none => .ok self
    | some (pid, path) => (path.setState .unused).map (self.set pid)

/-- Makes a path active. -/
def setActivePath (pid : Nat) : Except PathError Unit × PathMap :=
  match self.stopActive with
  | .error error => (.error error, self)
  | .ok self =>
    match self.get pid with
    | .error error => (.error error, self)
    | .ok path =>
      match path.setState .active with
      | .error error => (.error error, self)
      | .ok path =>
        -- A server validates the path, if that is not done or on its way.
        (.ok (), self.set pid (if self.isServer && !path.validated && !path.underValidation then
          path.requestValidation else path))

/-- What happens to the paths. -/
inductive PathOp where
  | insertPath (pathId pathChallengeRecvMaxQueueLen : Nat) (isInitial : Bool)
  /-- The use of several paths is negotiated. -/
  | setMultipath (v : Bool)
  /-- A path gets an identifier of the peer, or loses it. -/
  | setActiveDcidSeq (pid : Nat) (seq : Option Nat)
  /-- The limit of a server on what it may send changes. -/
  | setMaxSendBytes (pid v : Nat)
  /-- The application asks for a validation. -/
  | requestValidation (pid : Nat)
  | challengeSent (pid : Nat) (challenge : Challenge)
  | challengeReceived (pid : Nat) (data : Bytes)
  | responseSent (pid : Nat)
  | responseReceived (data : Bytes)
  | lossDetectionTimeout (pid now rtt : Nat)
  /-- The application asks for something on a path. -/
  | request (pid : Nat) (request : PathRequest)
  /-- The peer is told that a path is abandoned. -/
  | abandonSent (pid : Nat)
  | abandonReceived (pathId errorCode : Nat)
  | abandonAcknowledged (pathId : Nat)
  | setActivePath (pid : Nat)

/-- One event, with what it leaves when it fails. -/
def next (self : PathMap) : PathOp → PathMap
  | .insertPath pathId pathChallengeRecvMaxQueueLen isInitial =>
    match self.insertPath (.new pathId pathChallengeRecvMaxQueueLen isInitial) with
    | .ok (_, self) => self
    | .error _ => self
  | .setMultipath v => { self with multipath := v }
  | .setActiveDcidSeq pid seq => self.modify pid fun path => { path with activeDcidSeq := seq }
  | .setMaxSendBytes pid v => self.modify pid fun path => { path with maxSendBytes := v }
  | .requestValidation pid => self.modify pid Path.requestValidation
  | .challengeSent pid challenge => self.modify pid fun path => path.addChallengeSent challenge
  | .challengeReceived pid data => self.modify pid fun path => path.onChallengeReceived data
  | .responseSent pid => self.modify pid Path.popReceivedChallenge
  | .responseReceived data => (self.onResponseReceived data).2
  | .lossDetectionTimeout pid now rtt => self.modify pid fun path => path.onLossDetectionTimeout now rtt self.isServer
  | .request pid request => (self.request pid request).2
  | .abandonSent pid => (self.onPathAbandonSent pid).2
  | .abandonReceived pathId errorCode => (self.onPathAbandonReceived pathId errorCode).2
  | .abandonAcknowledged pathId => self.onPathAbandonAcknowledged pathId
  | .setActivePath pid => (self.setActivePath pid).2

variable {self} {pid : Nat}

theorem find?_set (self : PathMap) (pid probe : Nat) (path : Path) :
    (self.set pid path).paths.find? probe = if probe = pid then some path else self.paths.find? probe :=
  OrdMap.find?_insert self.paths pid probe path

theorem get_eq_ok_iff {path : Path} : self.get pid = .ok path ↔ self.paths.find? pid = some path := by
  unfold get
  split
  · rename_i other found
    rw [found, Except.ok.injEq, Option.some.injEq]
  · rename_i absent
    rw [absent]
    exact iff_of_false (fun same => by cases same) (fun same => by cases same)

theorem markPathAbandon_paths (self : PathMap) (pid : Nat) (abandon : Bool) :
    (self.markPathAbandon pid abandon).paths = self.paths := by
  unfold markPathAbandon
  split <;> rfl

/-- A request puts a path into the state that is asked for, and has the peer told when it closes; or nothing changes. -/
theorem request_cases (self : PathMap) (pid : Nat) (request : PathRequest) :
    (self.request pid request).2 = self ∨
      ∃ path new, self.paths.find? pid = some path ∧ path.setState request.requestedState = .ok new ∧
        ((self.request pid request).2 = self.set pid new ∨
          (new.isClosing = true ∧ (self.request pid request).2 = (self.set pid new).markPathAbandon pid true)) := by
  unfold PathMap.request
  split
  · exact .inl rfl
  split
  · exact .inl rfl
  split
  · exact .inl rfl
  rename_i path found
  split
  · exact .inl rfl
  · rename_i new done
    refine .inr ⟨path, new, get_eq_ok_iff.mp found, done, ?_⟩
    split
    · rename_i closing
      exact .inr ⟨closing, rfl⟩
    · exact .inl rfl

/-- A path that the peer abandons closes, and the peer is told unless it was; or nothing changes. -/
theorem onPathAbandonReceived_cases (self : PathMap) (abandonPathId errorCode : Nat) :
    (self.onPathAbandonReceived abandonPathId errorCode).2 = self ∨
      ∃ pid path new, self.paths.find? pid = some path ∧ path.setState (.closing errorCode) = .ok new ∧
        ((self.onPathAbandonReceived abandonPathId errorCode).2 = self.set pid new ∨
          (self.onPathAbandonReceived abandonPathId errorCode).2 = (self.set pid new).markPathAbandon pid true) := by
  unfold onPathAbandonReceived
  split
  · exact .inl rfl
  split
  · exact .inl rfl
  rename_i pid _ _ path found
  split
  · exact .inl rfl
  split
  · exact .inl rfl
  split
  · exact .inl rfl
  · rename_i new done
    refine .inr ⟨pid, path, new, get_eq_ok_iff.mp found, done, ?_⟩
    split
    · exact .inl rfl
    · exact .inr rfl

/-- The active path is put out of use, or nothing changes. -/
theorem stopActive_cases {after : PathMap} (done : self.stopActive = .ok after) :
    after = self ∨ ∃ pid path new, self.paths.find? pid = some path ∧ path.setState .unused = .ok new ∧
      after = self.set pid new := by
  unfold stopActive at done
  split at done
  · cases done
    exact .inl rfl
  split at done
  · cases done
    exact .inl rfl
  · rename_i pid path active
    have found : self.paths.find? pid = some path :=
      OrdMap.find?_eq_some_iff.mpr (List.mem_of_find?_eq_some active)
    cases stopped : path.setState .unused with
    | error error =>
      rw [stopped] at done
      cases done
    | ok new =>
      rw [stopped] at done
      cases done
      exact .inr ⟨pid, path, new, found, stopped, rfl⟩

/-- A path becomes active after the active one was put out of use, and may be validated then; or nothing changes. -/
theorem setActivePath_cases (self : PathMap) (pid : Nat) :
    (self.setActivePath pid).2 = self ∨ ∃ mid, self.stopActive = .ok mid ∧
      ((self.setActivePath pid).2 = mid ∨
        ∃ path new, mid.paths.find? pid = some path ∧ path.setState .active = .ok new ∧
          ((self.setActivePath pid).2 = mid.set pid new ∨
            (self.setActivePath pid).2 = mid.set pid new.requestValidation)) := by
  unfold setActivePath
  split
  · exact .inl rfl
  rename_i mid stopped
  refine .inr ⟨mid, stopped, ?_⟩
  split
  · exact .inl rfl
  rename_i path found
  split
  · exact .inl rfl
  · rename_i new started
    refine .inr ⟨path, new, get_eq_ok_iff.mp found, started, ?_⟩
    split
    · exact .inr rfl
    · exact .inl rfl

end PathMap

end Flexicast
