import Flexicast.Credit.FlowControl
import Flexicast.Stream.Offsets

/-! The limits of a rotated stream: its loop brings the limit of the other buffer, which has to cover its own. -/

namespace Flexicast

namespace RotatingRecvBuf

open RecvBuf (Part)

/-- The buffer that a stream loops to has a limit that is not below the one in force. -/
def Covered (rot : RotatingRecvBuf) : Prop :=
  ∀ fc inner, rot.fcData = some fc → fc.fcRecvBuf = some inner → rot.recv.maxData ≤ inner.maxData

/-- What a step that does not loop leaves as it was: the flow controllers of both buffers. -/
structure Steady (rot after : RotatingRecvBuf) : Prop where
  /-- The flow controller of the buffer that is read stays. -/
  flowControl : after.recv.flowControl = rot.recv.flowControl
  /-- A buffer without the extension stays without it. -/
  plain : after.fcData = none ↔ rot.fcData = none
  /-- The flow controller of the buffer to loop to stays. -/
  inner : ∀ fc' inner', after.fcData = some fc' → fc'.fcRecvBuf = some inner' →
    ∃ fc inner, rot.fcData = some fc ∧ fc.fcRecvBuf = some inner ∧ inner'.flowControl = inner.flowControl

section Steady

variable {rot mid after : RotatingRecvBuf}

theorem Steady.refl (rot : RotatingRecvBuf) : Steady rot rot :=
  ⟨rfl, Iff.rfl, fun fc inner held has => ⟨fc, inner, held, has, rfl⟩⟩

theorem Steady.trans (first : Steady rot mid) (second : Steady mid after) : Steady rot after := by
  constructor
  · exact second.flowControl.trans first.flowControl
  · exact second.plain.trans first.plain
  · intro fc' inner' held has
    obtain ⟨fc, inner, held, has, same⟩ := second.inner fc' inner' held has
    obtain ⟨fc, inner, held, has, same'⟩ := first.inner fc inner held has
    exact ⟨fc, inner, held, has, same.trans same'⟩

theorem Steady.ofRecv {recv : RecvBuf} (same : recv.flowControl = rot.recv.flowControl) :
    Steady rot { rot with recv := recv } :=
  ⟨same, Iff.rfl, fun fc inner held has => ⟨fc, inner, held, has, rfl⟩⟩

/-- A step that keeps the flow controllers keeps the limit covered. -/
theorem Steady.covered (steady : Steady rot after) (covered : rot.Covered) : after.Covered := by
  intro fc' inner' held has
  obtain ⟨fc, inner, held, has, same⟩ := steady.inner fc' inner' held has
  have covers := covered fc inner held has
  unfold RecvBuf.maxData at *
  rw [steady.flowControl, same]
  exact covers

end Steady

/-- What any step may do to the limits: it may count what is read, and it may loop. -/
structure Advances (rot after : RotatingRecvBuf) : Prop where
  /-- Without the extension, only the data consumed grows. -/
  plain : after.fcData = none → rot.fcData = none ∧ ∃ count,
    after.recv.flowControl = rot.recv.flowControl.addConsumed count
  /-- A covered limit stays covered, and does not fall. -/
  covered : rot.Covered → after.Covered ∧ rot.recv.maxData ≤ after.recv.maxData

section Advances

variable {rot mid after : RotatingRecvBuf} {buf : RangeBuf} {stop : Nat}

/-- A steady step advances the limits. -/
theorem Steady.advances (steady : Steady rot after) : Advances rot after := by
  constructor
  · intro none
    exact ⟨steady.plain.mp none, 0, steady.flowControl⟩
  · intro covered
    refine ⟨steady.covered covered, ?_⟩
    unfold RecvBuf.maxData
    rw [steady.flowControl]

/-- Advances add up. -/
theorem Advances.trans (first : Advances rot mid) (second : Advances mid after) : Advances rot after := by
  -- Plain buffers consume one after the other; a covered limit stays so and only grows.
  constructor
  · intro none
    obtain ⟨none, count, same⟩ := second.plain none
    obtain ⟨none, count', same'⟩ := first.plain none
    refine ⟨none, count' + count, ?_⟩
    rw [same, same']
    simp [FlowControl.addConsumed, Nat.add_assoc]
  · intro covered
    obtain ⟨covered, grows⟩ := first.covered covered
    obtain ⟨covered, grows'⟩ := second.covered covered
    exact ⟨covered, Nat.le_trans grows grows'⟩

/-- The loop advances the limits. -/
theorem fcLoopRecv_advances (rot : RotatingRecvBuf) : Advances rot rot.fcLoopRecv.2 := by
  unfold fcLoopRecv
  split
  · exact (Steady.refl rot).advances
  rename_i fc held
  split
  · exact (Steady.refl rot).advances
  dsimp only
  split
  · -- There is no buffer to loop to.
    rename_i gone
    constructor
    · exact fun none => nomatch none
    · intro covered
      refine ⟨?_, Nat.le_refl _⟩
      intro fc' inner' held' has
      cases held'
      cases has
  · rename_i inner has
    constructor
    · exact fun none => nomatch none
    · intro covered
      refine ⟨?_, covered fc inner held has⟩
      intro fc' inner' held' has'
      cases held'
      cases has'

theorem fcLoopRecv_flow (rot : RotatingRecvBuf) : rot.fcLoopRecv.1 ≠ .error .flowControl := by
  unfold fcLoopRecv
  split
  · simp
  split
  · simp
  dsimp only
  split <;> simp

end Advances

section Writing

variable {rot after : RotatingRecvBuf} {buf : RangeBuf} {stop : Nat}

theorem write_flow {recv : RecvBuf} (refused : recv.write buf = .error .flowControl) : recv.maxData < buf.maxOff := by
  -- Only the first check of the write returns a flow control error.
  rw [RecvBuf.write_eq] at refused
  split at refused
  · assumption
  split at refused
  · cases refused
  split at refused
  · cases refused
  split at refused
  · cases refused
  split at refused
  · cases refused
  split at refused <;> cases refused

theorem fcWrite_steady {fc : FcRecvBuf} (held : rot.fcData = some fc) (wf : buf.Wf) :
    Steady rot { rot with fcData := some (fc.write buf).2 } := by
  refine ⟨rfl, by simp [held], fun fc' inner' held' has => ?_⟩
  cases held'
  -- The chunk is written to the inner buffer, whose flow controller stays.
  unfold FcRecvBuf.write at has
  split at has
  · rename_i none
    rw [none] at has
    cases has
  rename_i inner some_
  split at has
  · exact ⟨fc, inner, held, some_, by rw [some_] at has; cases has; rfl⟩
  · rename_i written
    cases has
    exact ⟨fc, inner, held, some_, (RecvBuf.write_wrote wf written).keeps.flowControl⟩

theorem fcWrite_flow {fc : FcRecvBuf} (covered : rot.Covered) (held : rot.fcData = some fc)
    (within_ : buf.maxOff ≤ rot.recv.maxData) : (fc.write buf).1 ≠ .error .flowControl := by
  intro refused
  unfold FcRecvBuf.write at refused
  split at refused
  · cases refused
  rename_i inner has
  split at refused
  · rename_i error written
    cases refused
    -- The limit of the inner buffer is not below that of the stream.
    have passed := write_flow written
    have covers := covered fc inner held has
    omega
  · cases refused

theorem keepBelow_steady (part : Part stop buf) (inside : (rot.recv.discardRead buf).isSome = true) :
    Steady rot (rot.keepBelow buf).2 ∧
      (rot.Covered → stop ≤ rot.recv.maxData → (rot.keepBelow buf).1 ≠ .error .flowControl) := by
  unfold keepBelow
  split
  · exact ⟨.refl rot, fun _ _ => by simp⟩
  rename_i fc held
  split
  · -- The chunk starts before what is read next, and is cut there.
    rename_i before
    have short : rot.recv.offFront - buf.curOff ≤ buf.len := by
      unfold RecvBuf.discardRead at inside
      rw [if_pos before] at inside
      split at inside
      · cases inside
      · omega
    obtain ⟨first, -, -⟩ := part.splitOff short
    exact ⟨fcWrite_steady held first.1, fun covered below =>
      fcWrite_flow covered held (Nat.le_trans first.2 below)⟩
  · exact ⟨.refl rot, fun _ _ => by simp⟩

/-- The loop of `write` on its way: what is queued are parts of the chunk, and the flow controllers are untouched. -/
structure Under (rot : RotatingRecvBuf) (stop : Nat) (queue : List RangeBuf)
    (state : Except StreamError Unit × RotatingRecvBuf) : Prop where
  parts : ∀ part ∈ queue, Part stop part
  steady : Steady rot state.2
  flow : rot.Covered → stop ≤ rot.recv.maxData → state.1 ≠ .error .flowControl

/-- A turn of the loop that goes on leaves the flow controllers. -/
theorem Under.next {item : RangeBuf} {queue pushed : List RangeBuf}
    {state after : Except StreamError Unit × RotatingRecvBuf} (under : Under rot stop (item :: queue) state)
    (ran : writeTurn item state = .next after pushed) : Under rot stop (queue ++ pushed) after := by
  have part := under.parts item List.mem_cons_self
  unfold writeTurn at ran
  split at ran
  · cases ran
  rename_i inside
  have inside : (state.2.recv.discardRead item).isSome = true := by
    rw [Option.isSome_iff_ne_none]
    simpa using inside
  -- The part above the loop goes to the other buffer first, and the rest is written as usual.
  obtain ⟨steady, -⟩ := keepBelow_steady part inside
  split at ran
  · cases ran
  rename_i kept same
  rw [same] at steady
  cases turn : RecvBuf.writeTurn item kept.recv with
  | panic => simp [turn, Turn.map] at ran
  | halt state => exact absurd turn RecvBuf.writeTurn_ne_halt
  | next recv more =>
    rw [turn] at ran
    cases ran
    have cutting := RecvBuf.writeTurn_cutting part turn
    constructor
    · intro part member
      rcases List.mem_append.mp member with queued | later
      · exact under.parts part (List.mem_cons_of_mem _ queued)
      · exact cutting.later part later
    · exact (under.steady.trans steady).trans (.ofRecv cutting.keeps.flowControl)
    · simp

/-- A turn of the loop that ends it leaves the flow controllers, and breaks no covered limit. -/
theorem Under.halt {item : RangeBuf} {queue : List RangeBuf}
    {state after : Except StreamError Unit × RotatingRecvBuf} (under : Under rot stop (item :: queue) state)
    (ran : writeTurn item state = .halt after) : Under rot stop [] after := by
  have part := under.parts item List.mem_cons_self
  unfold writeTurn at ran
  split at ran
  · cases ran
  rename_i inside
  have inside : (state.2.recv.discardRead item).isSome = true := by
    rw [Option.isSome_iff_ne_none]
    simpa using inside
  -- Only keeping a part for the other buffer can end the loop.
  obtain ⟨steady, flow⟩ := keepBelow_steady part inside
  split at ran
  · rename_i error kept same
    cases ran
    rw [same] at steady flow
    refine ⟨fun _ member => (nomatch member), under.steady.trans steady, fun covered below => ?_⟩
    apply flow (under.steady.covered covered)
    unfold RecvBuf.maxData at *
    rw [under.steady.flowControl]
    exact below
  · rename_i kept same
    cases turn : RecvBuf.writeTurn item kept.recv with
    | panic => simp [turn, Turn.map] at ran
    | halt state => exact absurd turn RecvBuf.writeTurn_ne_halt
    | next recv more => simp [turn, Turn.map] at ran

/-- What a write does to the limits: it advances them, and breaks none that is covered and not passed. -/
def Flows (rot : RotatingRecvBuf) (stop : Nat) (result : Except StreamError Unit × RotatingRecvBuf) : Prop :=
  Advances rot result.2 ∧ (rot.Covered → stop ≤ rot.recv.maxData → result.1 ≠ .error .flowControl)

/-- A steady step before a write changes nothing about the limits. -/
theorem Flows.behind {mid : RotatingRecvBuf} {stop' : Nat} {result : Except StreamError Unit × RotatingRecvBuf}
    (flows : Flows mid stop' result) (steady : Steady rot mid) (below : stop' ≤ stop) : Flows rot stop result := by
  refine ⟨steady.advances.trans flows.1, fun covered within_ => flows.2 (steady.covered covered) ?_⟩
  unfold RecvBuf.maxData at *
  rw [steady.flowControl]
  exact Nat.le_trans below within_

/-- A chunk that lies below what is read next goes to the other buffer, and may bring the loop. -/
theorem writeBelow_flows (wf : buf.Wf) : Flows rot buf.maxOff (rot.writeBelow buf) := by
  unfold writeBelow
  split
  · exact ⟨(Steady.refl rot).advances, fun _ _ => by simp⟩
  rename_i fc held
  -- The chunk is written to the other buffer, and a complete one brings the loop.
  have steady := fcWrite_steady held wf
  have flow : rot.Covered → buf.maxOff ≤ rot.recv.maxData → (fc.write buf).1 ≠ .error .flowControl :=
    fun covered => fcWrite_flow covered held
  split
  · rename_i error fc' written
    rw [written] at steady flow
    exact ⟨steady.advances, flow⟩
  · rename_i fc' written
    rw [written] at steady
    dsimp only
    split
    · split
      · exact ⟨steady.advances, fun _ _ => by simp⟩
      split
      · exact ⟨steady.advances.trans (fcLoopRecv_advances _), fun _ _ => fcLoopRecv_flow _⟩
      · exact ⟨steady.advances, fun _ _ => by simp⟩
    · exact ⟨steady.advances, fun _ _ => by simp⟩

theorem record_steady (rot : RotatingRecvBuf) (buf : RangeBuf) : Steady rot (rot.record buf) := by
  unfold record
  split
  · exact .ofRecv rfl
  · exact .refl rot

/-- A chunk that is kept advances the limits, and breaks none that is covered. -/
theorem writeKept_flows (wf : buf.Wf) : Flows rot buf.maxOff (rot.writeKept buf) := by
  have same : Flows rot buf.maxOff (.ok (), rot) := ⟨(Steady.refl rot).advances, fun _ _ => by simp⟩
  have recorded := record_steady rot buf
  unfold writeKept
  split
  · exact ⟨(Steady.refl rot).advances, fun _ _ => by simp⟩
  split
  · exact same
  split
  · exact same
  split
  · exact (writeBelow_flows wf).behind recorded (Nat.le_refl _)
  split
  · -- The loop over the parts of the chunk went through.
    rename_i result drained
    have start : Under (rot.record buf) buf.maxOff [buf] (.ok (), rot.record buf) := by
      refine ⟨fun part member => ?_, .refl _, fun _ _ => by simp⟩
      rw [List.mem_singleton.mp member]
      exact ⟨wf, Nat.le_refl _⟩
    have under : Under (rot.record buf) buf.maxOff [] result :=
      WorkQueue.drain_some (fun _ _ _ _ _ under ran => under.next ran) (fun _ _ _ _ under ran => under.halt ran)
        _ _ _ _ start drained
    have flows : Flows (rot.record buf) buf.maxOff result := ⟨under.steady.advances, under.flow⟩
    exact flows.behind recorded (Nat.le_refl _)
  · exact ⟨recorded.advances, fun _ _ => by simp⟩

theorem strip_steady (wf : buf.Wf) {kept : RangeBuf} (stripped : rot.strip buf = .ok (kept, after)) :
    Steady rot after ∧ Part buf.maxOff kept := by
  -- A chunk is kept whole, or cut at the final offset that the loop had.
  unfold strip at stripped
  split at stripped
  · cases stripped
    exact ⟨.refl rot, wf, Nat.le_refl _⟩
  rename_i fc finOff past
  split at stripped
  · split at stripped
    · cases stripped
    · rename_i short
      cases stripped
      have part : Part buf.maxOff buf := ⟨wf, Nat.le_refl _⟩
      exact ⟨.ofRecv rfl, (part.splitOff (by omega : finOff - buf.off ≤ buf.len)).1⟩
  · cases stripped

theorem strip_flow {error : StreamError} (refused : rot.strip buf = .error error) : error ≠ .flowControl := by
  -- A chunk that cannot be stripped is a final size error or an overflow.
  unfold strip at refused
  split at refused
  · cases refused
  split at refused
  · split at refused
    · cases refused
      simp
    · cases refused
  · cases refused
    simp

theorem write_flows (wf : buf.Wf) : Flows rot buf.maxOff (rot.write buf) := by
  unfold write
  split
  · rename_i passes
    exact ⟨(Steady.refl rot).advances, fun _ below => absurd passes (Nat.not_lt.mpr below)⟩
  split
  -- What is not stripped is refused for another reason than the limit.
  · rename_i error refused
    refine ⟨(Steady.refl rot).advances, fun _ _ same => strip_flow refused ?_⟩
    cases same
    rfl
  · rename_i kept mid stripped
    -- What is kept ends no later than the chunk, and is written as usual.
    obtain ⟨steady, part⟩ := strip_steady wf stripped
    exact (writeKept_flows part.1).behind steady part.2

end Writing

section Others

variable {rot after : RotatingRecvBuf}

/-- The loop of `emit` leaves the flow controller. -/
theorem emitLoop_flowControl (bound : Option Nat) (fuel : Nat) : ∀ (capacity : Nat) (recv : RecvBuf),
    (emitLoop bound fuel capacity recv).2.flowControl = recv.flowControl := by
  -- A turn of the loop takes bytes from the first chunk, and never the flow controller.
  induction fuel with
  | zero => exact fun _ _ => rfl
  | succ fuel ih =>
    intro capacity recv
    simp only [emitLoop]
    split
    · rfl
    split
    · rfl
    split
    · rfl
    · exact ih _ _

/-- A read counts what it returns as consumed, and may loop. -/
theorem emit_advances (rot : RotatingRecvBuf) (outLen : Nat) : Advances rot (rot.emit outLen).2 := by
  unfold emit
  split
  · exact (Steady.refl rot).advances
  split
  · -- A stream that was reset drops its data.
    have emptied : Steady rot { rot with recv := { rot.recv with data := OrdMap.empty } } := .ofRecv rfl
    exact emptied.advances
  -- The bytes that are read are counted as consumed, which lowers no limit.
  have read : Advances rot (rot.afterRead outLen).2 := by
    have same := emitLoop_flowControl rot.bound rot.recv.data.entries.length outLen rot.recv
    unfold afterRead
    generalize emitLoop rot.bound rot.recv.data.entries.length outLen rot.recv = result at same
    obtain ⟨out, recv⟩ := result
    constructor
    · exact fun none => ⟨none, out.length, congrArg (FlowControl.addConsumed · out.length) same⟩
    · intro covered
      have kept : recv.flowControl.maxData = rot.recv.flowControl.maxData := congrArg FlowControl.maxData same
      refine ⟨fun fc inner held has => ?_, Nat.le_of_eq kept.symm⟩
      exact Nat.le_trans (Nat.le_of_eq kept) (covered fc inner held has)
  -- Behind the read, a rotated stream may loop to the other buffer.
  refine read.trans ?_
  unfold report
  split
  · have loops := fcLoopRecv_advances (rot.afterRead outLen).2
    split
    · rename_i looped
      rw [looped] at loops
      exact loops
    · rename_i looped
      rw [looped] at loops
      exact loops
  split
  · exact (Steady.refl _).advances
  · exact (Steady.refl _).advances

/-- A reset writes an empty chunk at the final size. -/
theorem reset_flows (rot : RotatingRecvBuf) (errorCode finalSize : Nat) :
    Advances rot (rot.reset errorCode finalSize).2 ∧ (rot.Covered → finalSize ≤ rot.recv.maxData →
      (rot.reset errorCode finalSize).1 ≠ .error .flowControl) := by
  unfold reset
  split
  · exact ⟨(Steady.refl rot).advances, fun _ _ => by simp⟩
  split
  · exact ⟨(Steady.refl rot).advances, fun _ _ => by simp⟩
  split
  · exact ⟨(Steady.refl rot).advances, fun _ _ => by simp⟩
  -- What was buffered is dropped, which leaves the flow controllers.
  have cleared : Steady rot (rot.cleared errorCode finalSize) := .ofRecv rfl
  have wrote : Flows (rot.cleared errorCode finalSize) _ _ := write_flows (RangeBuf.wf_fromSlice [] finalSize true)
  have flows : Flows rot finalSize _ := wrote.behind cleared (Nat.le_of_eq (RangeBuf.maxOff_fromSlice _ _ _))
  obtain ⟨advances, flow⟩ := flows
  split
  · rename_i error left written
    rw [written] at advances flow
    exact ⟨advances, fun covered below same => flow covered below (by cases same; rfl)⟩
  · rename_i left written
    rw [written] at advances
    exact ⟨advances, fun _ _ => by simp⟩

/-- A shutdown leaves the limits. -/
theorem shutDown_advances (done : rot.shutDown = .ok after) : Advances rot after := by
  unfold shutDown at done
  cases shut : rot.recv.shutDown with
  | error error =>
    rw [shut] at done
    cases done
  | ok recv =>
    rw [shut] at done
    cases done
    obtain ⟨-, -, same⟩ := RecvBuf.shutDown_bounded shut
    -- A shutdown drops data, and leaves the flow controller.
    have flow : recv.flowControl = rot.recv.flowControl := by rw [same]
    have steady : Steady rot { rot with recv := recv } := .ofRecv flow
    exact steady.advances

theorem fcSetOffsetAt_advances (rot : RotatingRecvBuf) (offset : Nat) : Advances rot (rot.fcSetOffsetAt offset) := by
  constructor
  · exact fun none => nomatch none
  · intro _
    refine ⟨fun fc inner held has => ?_, Nat.le_refl _⟩
    cases held
    cases has
    exact Nat.le_refl _

end Others

end RotatingRecvBuf

end Flexicast
