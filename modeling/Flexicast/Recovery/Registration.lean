import Flexicast.Ack.PacketLaws
import Flexicast.Recovery.Replica

/-! The registration of a unicast connection at the source of its flow, of `flexicast/mod.rs`. -/

namespace Flexicast

namespace Loss

open Channel (FcError)

section Definitions

/-- The path of a flow at its source: its packet number space, and the packets that it has sent. -/
structure FcPath where
  nextPktNum : Nat
  sentPackets : List Sent

/-- The flexicast part of the source of a flow. -/
structure FcFlow where
  role : McRole
  /-- The aggregator of the acknowledgments, when the flow is reliable. -/
  mcAck : Option McAck
  /-- The path of the flow, once there is one. -/
  path : Option FcPath

/-- The reliable part of a unicast connection, with what registering it reads besides. -/
structure RFcUcPath extends Flexicast.RFcUcPath where
  /-- Whether the source is aware that this client listens to it. -/
  notifiedFcSource : Bool
  /-- The current highest packet number of the flow. -/
  fcHighestPn : Option Nat

/-- The next packet number of the flow, and the lowest one still in the sending queue. -/
def FcFlow.fcNextAndFirstPn (flow : FcFlow) : Option (Nat × Nat) :=
  flow.path.bind fun path => (path.sentPackets.head?.map Sent.pktNum).map fun firstPn => (path.nextPktNum, firstPn)

/-- What a call leaves, and the first packet number that it registered the connection with. -/
structure Controlled where
  uc : Option RFcUcPath
  flow : FcFlow
  firstPn : Option Nat

/-- Registers a reliable connection at its source, unless that was done before. -/
def RFcUcPath.register (rfc : RFcUcPath) (flow : FcFlow) : Controlled :=
  let fcPn := flow.fcNextAndFirstPn
  let rfc := if rfc.fcHighestPn.isNone then { rfc with fcHighestPn := fcPn.map Prod.fst } else rfc
  match flow.mcAck with
  | none => ⟨some rfc, flow, none⟩
  | some mcAck =>
    if rfc.notifiedFcSource then ⟨some rfc, flow, none⟩
    else
      -- A source without a queue registers from packet zero on.
      let firstPn := (fcPn.getD (0, 0)).1
      ⟨some { rfc with notifiedFcSource := true }, { flow with mcAck := some (mcAck.newRecv firstPn) }, some firstPn⟩

/--
The part of `uc_to_fc_control` that registers a connection.

The acknowledgments and the sent packets are exchanged behind it.
-/
def ucToFcControl (uc : Option RFcUcPath) (fcFlow : Option FcFlow) : Except FcError Controlled :=
  match fcFlow with
  | none => .error .mcDisabled
  | some flow =>
    if flow.role ≠ .serverFlexicast then .error .mcInvalidRole
    else
      match uc with
      | none => .ok ⟨none, flow, none⟩
      | some rfc => .ok (rfc.register flow)

/-- A packet that was sent before a number, and that the source still waits to be acknowledged by its receivers. -/
def Outstanding (mcAck : McAck) (path : FcPath) (pn : Nat) : Prop :=
  pn < path.nextPktNum ∧ ¬ mcAck.waiting.Contains pn ∧
    ∃ pkt ∈ path.sentPackets, pkt.pktNum = pn ∧ pkt.timeAcked = none

/--
The connection is registered with the next packet number of the flow.

Every earlier packet that still waits counts as acknowledged by one receiver more, and the connection keeps the number.
-/
def RegisteredAtNext (rfc : RFcUcPath) (flow : FcFlow) : Prop :=
  ∃ mcAck ∈ flow.mcAck, ∃ path ∈ flow.path, ∃ after, ucToFcControl (some rfc) (some flow) = .ok after ∧
    after.firstPn = some path.nextPktNum ∧
    (after.uc.bind RFcUcPath.fcHighestPn) = some path.nextPktNum ∧
    ∀ registered ∈ after.flow.mcAck, ∀ pn, Outstanding mcAck path pn →
      registered.tally pn = mcAck.tally pn + 1

/-- A source that finds the next packet number, a connection without another one, and counters for what waits. -/
def Registrable (rfc : RFcUcPath) (flow : FcFlow) : Prop :=
  flow.role = .serverFlexicast ∧ ∃ mcAck ∈ flow.mcAck, ∃ path ∈ flow.path,
    (path.sentPackets ≠ [] ∨ path.nextPktNum = 0) ∧
    (rfc.fcHighestPn = some path.nextPktNum ∨ rfc.fcHighestPn = none ∧ path.sentPackets ≠ []) ∧
    ∀ pn, Outstanding mcAck path pn → mcAck.acked.find? pn ≠ none

end Definitions

section Registering

variable {flow : FcFlow} {path : FcPath}

theorem fcNextAndFirstPn_next (held : flow.path = some path) :
    flow.fcNextAndFirstPn.map Prod.fst = if path.sentPackets = [] then none else some path.nextPktNum := by
  -- The lowest number of the queue is looked up as well, and an empty queue has none.
  cases queue : path.sentPackets <;> simp [FcFlow.fcNextAndFirstPn, held, queue]

theorem credited_iff (mcAck : McAck) {firstPn pn : Nat} (earlier : pn < firstPn) :
    (mcAck.newRecv firstPn).tally pn = mcAck.tally pn + 1 ↔ mcAck.acked.find? pn ≠ none := by
  unfold McAck.tally
  rw [mcAck.find?_newRecv]
  cases mcAck.acked.find? pn <;> simp [earlier]

/-- The first packet number with which a connection is registered: the next one, or zero without a queue. -/
def FcPath.firstPn (path : FcPath) : Nat := if path.sentPackets = [] then 0 else path.nextPktNum

/-- What the registration of a connection leaves. -/
theorem register_fresh {rfc : RFcUcPath} (fresh : rfc.notifiedFcSource = false) {mcAck : McAck}
    (reliable : flow.mcAck = some mcAck) (held : flow.path = some path) :
    rfc.register flow =
      ⟨some { rfc with
          notifiedFcSource := true
          fcHighestPn := rfc.fcHighestPn.or (if path.sentPackets = [] then none else some path.nextPktNum) },
        { flow with mcAck := some (mcAck.newRecv path.firstPn) }, some path.firstPn⟩ := by
  have found := fcNextAndFirstPn_next held
  have first : (flow.fcNextAndFirstPn.getD (0, 0)).1 = path.firstPn := by
    unfold FcPath.firstPn
    -- The default pair stands for an empty queue.
    cases pair : flow.fcNextAndFirstPn <;> by_cases queue : path.sentPackets = [] <;> simp_all
  unfold RFcUcPath.register
  simp only [reliable, found, first]
  cases mark : rfc.fcHighestPn <;> simp [fresh, mark]

/-- A connection is registered with the next packet number just when the queue, the mark and the counters allow it. -/
theorem registeredAtNext_iff {rfc : RFcUcPath} (fresh : rfc.notifiedFcSource = false) (flow : FcFlow) :
    RegisteredAtNext rfc flow ↔ Registrable rfc flow := by
  unfold RegisteredAtNext Registrable
  by_cases role : flow.role = .serverFlexicast
  · simp only [role, true_and]
    refine exists_congr fun mcAck => and_congr_right fun reliable =>
      exists_congr fun path => and_congr_right fun held => ?_
    have registered := register_fresh fresh (Option.mem_def.mp reliable) (Option.mem_def.mp held)
    have called : ucToFcControl (some rfc) (some flow) = .ok (rfc.register flow) := by simp [ucToFcControl, role]
    rw [called, registered]
    simp only [Except.ok.injEq, exists_eq_left', Option.bind_some, Option.mem_def, Option.some.injEq, forall_eq']
    by_cases queue : path.sentPackets = []
    · -- Without a queue the connection is registered from zero on, and nothing waits to be credited.
      have idle : ∀ pn, ¬ Outstanding mcAck path pn := by
        rintro pn ⟨-, -, pkt, member, -⟩
        simp [queue] at member
      simp [FcPath.firstPn, queue, idle, eq_comm]
    · have credits : (∀ pn, Outstanding mcAck path pn →
          (mcAck.newRecv path.firstPn).tally pn = mcAck.tally pn + 1) ↔
          ∀ pn, Outstanding mcAck path pn → mcAck.acked.find? pn ≠ none := by
        refine forall_congr' fun pn => imp_congr_right fun waits => ?_
        rw [FcPath.firstPn, if_neg queue]
        exact credited_iff mcAck waits.1
      rw [credits]
      cases mark : rfc.fcHighestPn <;> simp [FcPath.firstPn, queue]
  · -- A connection that is no source registers nobody.
    simp [ucToFcControl, role]

/-- A connection that just joined, and that the source has not been told of. -/
def unknownUc : RFcUcPath := ⟨⟨.default, McAck.new⟩, false, none⟩

/-- A source with two receivers and two packets in its queue: both receivers acknowledged the first packet, which the
source has not collected yet, and one receiver acknowledged the second. -/
def busySource : FcFlow :=
  { role := .serverFlexicast
    mcAck := some ((((McAck.new.newRecv 0).newRecv 0).onAckReceived (RangeSet.default.insert 6 8)).onAckReceived
      (RangeSet.default.insert 6 7))
    path := some ⟨8, [flightPacket 6, flightPacket 7]⟩ }

theorem registeredAtNext_iff_busySource : RegisteredAtNext unknownUc busySource := by
  apply (registeredAtNext_iff rfl busySource).mpr
  refine ⟨rfl, _, rfl, _, rfl, .inl (by decide), .inr ⟨rfl, by decide⟩, ?_⟩
  rintro pn ⟨-, open_, pkt, member, rfl, -⟩
  -- The first packet only waits to be collected.
  rcases List.mem_cons.mp member with rfl | member
  · exact absurd (by decide) open_
  · rw [List.mem_singleton.mp member]
    decide

/-- A source that has sent five packets, all of them acknowledged and drained. -/
def drainedSource : FcFlow := ⟨.serverFlexicast, some (McAck.new.newRecv 0), some ⟨5, []⟩⟩

/-- A source with one receiver, whose only packet in the queue nobody has acknowledged yet. -/
def unheardSource : FcFlow := ⟨.serverFlexicast, some (McAck.new.newRecv 0), some ⟨5, [flightPacket 4]⟩⟩

/-- A source without a queue registers from packet zero on and leaves the connection without a number, and one whose
packet has no counter does not credit it. -/
theorem drained_source_registers_at_zero :
    (¬ ∀ rfc flow, rfc.notifiedFcSource = false → flow.role = .serverFlexicast → flow.mcAck.isSome = true →
      flow.path.isSome = true → RegisteredAtNext rfc flow) ∧
    ¬ RegisteredAtNext unknownUc drainedSource ∧ ¬ RegisteredAtNext unknownUc unheardSource := by
  have drained : ¬ RegisteredAtNext unknownUc drainedSource := by
    rintro ⟨_, -, _, same, after, called, firstPn, -⟩
    cases same
    cases called
    exact absurd firstPn (by decide)
  refine ⟨fun always => drained (always _ _ rfl rfl rfl rfl), drained, ?_⟩
  rintro ⟨_, same, _, queue, after, called, -, -, credits⟩
  cases same
  cases queue
  cases called
  -- The counter of packet four stays closed.
  have credited := credits _ rfl 4 ⟨by decide, by decide, flightPacket 4, List.mem_singleton.mpr rfl, rfl, rfl⟩
  exact absurd credited (by decide)

end Registering

section Notifying

end Notifying

end Loss

end Flexicast
