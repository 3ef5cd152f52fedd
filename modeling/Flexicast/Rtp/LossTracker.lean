import Flexicast.Lib.Runs
import Flexicast.Congestion.Protocol

/-! Losses of an RTP flow counted by its 16-bit sequence numbers, of `fc_app/rtp.rs`. -/

namespace Flexicast

namespace Rtp

open Congestion (Float64)

variable {F : Type} [Float64 F]

section Tracker

/-- The field of a header that the tracker reads. -/
structure RtpHeader where
  seq : Nat
  deriving DecidableEq

/-- What was received and lost of a flow. -/
structure RtpLossTracker (F : Type) where
  recv : Nat
  lost : Nat
  /-- The sequence number that is expected next. -/
  highest : Nat
  instantLossRate : F

/-- The largest 16-bit number. -/
def maxU16 : Nat := 65535

/-- A difference of 16-bit numbers, which wraps. -/
def wrappingSub (left right : Nat) : Nat := (left + 65536 - right) % 65536

/-- A sum of 16-bit numbers, which wraps. -/
def wrappingAdd (left right : Nat) : Nat := (left + right) % 65536

namespace RtpLossTracker

/-- Nothing received yet. -/
def new : RtpLossTracker F := ⟨0, 0, 0, 0⟩

/-- The loss rate before it takes up one packet more. -/
def decayed (rate : F) : F := (85 : Nat) / (100 : Nat) * rate

/-- The loss rate after some lost packets. -/
def missed : Nat → F → F
  | 0, rate => rate
  | count + 1, rate => missed count (decayed rate + (15 : Nat) / (100 : Nat))

/-- The number that is expected, which the first header sets. -/
def expected (tracker : RtpLossTracker F) (header : RtpHeader) : Nat :=
  if tracker.recv = 0 then header.seq else tracker.highest

/-- How many numbers a header skips. -/
def missing (tracker : RtpLossTracker F) (header : RtpHeader) : Nat :=
  wrappingSub header.seq (tracker.expected header)

/-- A header is taken for an earlier one when it seems to skip too many. -/
def ignores (tracker : RtpLossTracker F) (header : RtpHeader) : Bool := maxU16 / 2 < tracker.missing header

/-- The number that is expected behind a header. -/
def following (highest seq : Nat) : Nat :=
  let next := wrappingAdd seq 1
  -- The numbers start again.
  if maxU16 / 4 * 3 < highest ∧ seq < maxU16 / 4 then next else max highest next

/-- Takes up a header. -/
def onHeaderRecv (tracker : RtpLossTracker F) (header : RtpHeader) : RtpLossTracker F :=
  let highest := tracker.expected header
  let missing := tracker.missing header
  if tracker.ignores header then { tracker with highest := highest }
  else
    { recv := (tracker.recv + 1) % 2 ^ 64
      lost := (tracker.lost + missing) % 2 ^ 64
      instantLossRate := missed missing (decayed tracker.instantLossRate)
      highest := following highest header.seq }

end RtpLossTracker

end Tracker

section Sessions

/-- A tracker that has seen headers with some numbers, the latest first. -/
structure Session (F : Type) where
  tracker : RtpLossTracker F
  numbers : List Nat
  accepted : Bool

namespace Session

/-- A fresh tracker. -/
def new : Session F := ⟨.new, [], true⟩

/-- The header of a number, which carries its 16 low bits. -/
def header (number : Nat) : RtpHeader := ⟨number % 65536⟩

@[simp] theorem header_seq (number : Nat) : (header number).seq = number % 65536 := rfl

/-- The next header arrives. -/
def next (session : Session F) (number : Nat) : Session F where
  tracker := session.tracker.onHeaderRecv (header number)
  numbers := number :: session.numbers
  accepted := session.accepted && !session.tracker.ignores (header number)

/-- How many numbers were skipped. -/
def skipped : List Nat → Nat
  | later :: earlier :: rest => later - earlier - 1 + skipped (earlier :: rest)
  | _ => 0

/-- The numbers rise, by less than half of what 16 bits hold. -/
def Rising (session : Session F) (number : Nat) : Prop :=
  ∀ last, session.numbers.head? = some last → last < number ∧ number - last < 2 ^ 15

/-- The tracker tells what was received and skipped. -/
structure Tells (session : Session F) : Prop where
  accepted : session.accepted = true
  recv : session.tracker.recv = session.numbers.length
  lost : session.tracker.lost = skipped session.numbers
  highest : ∀ last, session.numbers.head? = some last → session.tracker.highest = (last + 1) % 2 ^ 16

/-- A number that is not the last one of 16 bits, where the bits start again near their ends only, and counts that
fit into 64 bits. -/
structure Regular (session : Session F) (number : Nat) : Prop where
  inner : number % 65536 ≠ maxU16
  near : ∀ last, session.numbers.head? = some last →
    (last + 1) % 65536 ≤ number % 65536 ∨ maxU16 / 4 * 3 < (last + 1) % 65536 ∧ number % 65536 < maxU16 / 4
  recv : session.numbers.length + 1 < 2 ^ 64
  lost : skipped (number :: session.numbers) < 2 ^ 64

variable {session : Session F} {number : Nat}

/-- The number that is expected behind a header is the next one, unless the header has the last number of all or the
numbers start again far from their ends. -/
theorem following_eq_iff {highest seq : Nat} (low : highest < 65536) (small : seq < 65536)
    (near : wrappingSub seq highest ≤ maxU16 / 2) :
    RtpLossTracker.following highest seq = (seq + 1) % 65536 ↔
      seq ≠ maxU16 ∧ (highest ≤ seq ∨ maxU16 / 4 * 3 < highest ∧ seq < maxU16 / 4) := by
  unfold wrappingSub at near
  have top : maxU16 = 65535 := rfl
  by_cases again : maxU16 / 4 * 3 < highest ∧ seq < maxU16 / 4
  · have next : RtpLossTracker.following highest seq = (seq + 1) % 65536 := if_pos again
    simp only [next, true_iff]
    omega
  · have larger : RtpLossTracker.following highest seq = max highest ((seq + 1) % 65536) := if_neg again
    -- The larger of the two numbers is the next one just when the expected one is not above it.
    rw [larger]
    omega

/-- A header that skips few numbers is told right just when the number behind it is, and the counts have room. -/
theorem next_tells (tells : session.Tells) {highest gap : Nat}
    (expected : session.tracker.expected (header number) = highest)
    (missing : session.tracker.missing (header number) = gap) (small : gap ≤ maxU16 / 2)
    (skips : skipped (number :: session.numbers) = gap + skipped session.numbers) :
    (session.next number).Tells ↔
      RtpLossTracker.following highest (number % 65536) = (number % 65536 + 1) % 65536 ∧
        session.numbers.length + 1 < 2 ^ 64 ∧ skipped (number :: session.numbers) < 2 ^ 64 := by
  have accepts : session.tracker.ignores (header number) = false := by
    rw [RtpLossTracker.ignores, missing]
    exact decide_eq_false (by omega)
  have counts : session.tracker.onHeaderRecv (header number) =
      { recv := (session.numbers.length + 1) % 2 ^ 64
        lost := (skipped session.numbers + gap) % 2 ^ 64
        instantLossRate := RtpLossTracker.missed gap (RtpLossTracker.decayed session.tracker.instantLossRate)
        highest := RtpLossTracker.following highest (number % 65536) } := by
    simp [RtpLossTracker.onHeaderRecv, accepts, expected, missing, tells.recv, tells.lost]
  constructor
  · intro next
    have recv := next.recv
    have lost := next.lost
    have right := next.highest number rfl
    simp only [Session.next, counts, List.length_cons] at recv lost right
    -- A count that wraps is below 2 ^ 64.
    refine ⟨by omega, by omega, by omega⟩
  · rintro ⟨right, room, few⟩
    refine ⟨by simp [Session.next, tells.accepted, accepts], ?_, ?_, ?_⟩
    · simp only [Session.next, counts, List.length_cons]
      exact Nat.mod_eq_of_lt room
    · simp only [Session.next, counts]
      rw [Nat.mod_eq_of_lt (by omega)]
      omega
    · intro last there
      cases there
      simp only [Session.next, counts, right]
      omega

/-- The next header is told right just when its number is regular. -/
theorem tells_iff_regular (tells : session.Tells) (rising : session.Rising number) :
    (session.next number).Tells ↔ session.Regular number := by
  have bits := Nat.mod_lt number (show 65536 > 0 by decide)
  cases seen : session.numbers with
  | nil =>
    -- The first header sets what is expected.
    have recv : session.tracker.recv = 0 := by rw [tells.recv, seen, List.length_nil]
    have expected : session.tracker.expected (header number) = number % 65536 := if_pos recv
    have none_ : wrappingSub (number % 65536) (number % 65536) = 0 := by
      unfold wrappingSub
      omega
    have missing : session.tracker.missing (header number) = 0 := by
      rw [RtpLossTracker.missing, expected]
      exact none_
    rw [next_tells tells expected missing (by decide) (by simp [seen, skipped]),
      following_eq_iff bits bits (by rw [none_]; decide)]
    constructor
    · rintro ⟨⟨inner, -⟩, room, few⟩
      exact ⟨inner, fun last there => by simp [seen] at there, room, few⟩
    · intro regular
      exact ⟨⟨regular.inner, Or.inl (Nat.le_refl _)⟩, regular.recv, regular.lost⟩
  | cons last rest =>
    obtain ⟨above, close⟩ := rising last (by rw [seen, List.head?_cons])
    have recv : session.tracker.recv ≠ 0 := by rw [tells.recv, seen, List.length_cons]; omega
    have expected : session.tracker.expected (header number) = (last + 1) % 65536 :=
      (if_neg recv).trans (tells.highest last (by rw [seen, List.head?_cons]))
    -- The distance of the 16-bit numbers is that of the numbers, since they are close.
    have gap : wrappingSub (number % 65536) ((last + 1) % 65536) = number - last - 1 := by
      unfold wrappingSub
      omega
    have missing : session.tracker.missing (header number) = number - last - 1 := by
      rw [RtpLossTracker.missing, expected]
      exact gap
    have small : number - last - 1 ≤ maxU16 / 2 := by
      unfold maxU16
      omega
    rw [next_tells tells expected missing small (by simp [seen, skipped]),
      following_eq_iff (Nat.mod_lt _ (by decide)) bits (by rw [gap]; exact small)]
    constructor
    · rintro ⟨⟨inner, near⟩, room, few⟩
      refine ⟨inner, fun other there => ?_, room, few⟩
      rw [seen, List.head?_cons] at there
      cases there
      exact near
    · intro regular
      exact ⟨⟨regular.inner, regular.near last (by rw [seen, List.head?_cons])⟩, regular.recv, regular.lost⟩

theorem tells_new : (new : Session F).Tells := ⟨rfl, rfl, rfl, fun _ there => by cases there⟩

/-- A fresh tracker tells what was received and skipped after each header just when all numbers are regular. -/
theorem tracks_iff_regular (numbers : List Nat) (rising : Runs.Along next Rising (new : Session F) numbers) :
    (∀ done, done <+: numbers → (Runs.run next (new : Session F) done).Tells) ↔
      Runs.Along next Regular (new : Session F) numbers :=
  -- What was told right so far decides about the next header, and so about the whole run.
  @Runs.always_iff_along _ _ next Rising Regular (fun _ => True) Tells (fun _ _ _ _ => trivial)
    (fun _ _ _ tells rising => tells_iff_regular tells rising) numbers _ trivial tells_new rising

/-- Three headers, the last of them behind the end of the 16 bits. -/
theorem tracks_iff_regular_thrice :
    Runs.Along next Regular (new : Session Rat) [65530, 65534, 65540] ∧
      ∀ done, done <+: [65530, 65534, 65540] → (Runs.run next (new : Session Rat) done).Tells := by
  have regular : Runs.Along next Regular (new : Session Rat) [65530, 65534, 65540] := by
    refine ⟨?_, ?_, ?_, trivial⟩ <;> constructor <;> simp [next, new, skipped, maxU16]
  exact ⟨regular, (tracks_iff_regular _ (by simp [Runs.Along, Rising, next, new])).mpr regular⟩

/-- Behind the last number of 16 bits the tracker goes on to expect that number. -/
theorem last_number_expected_again :
    ¬ ∀ numbers, Runs.Along next Rising (new : Session Rat) numbers →
      ∀ done, done <+: numbers → (Runs.run next (new : Session Rat) done).Tells := by
  intro tells
  have rising : Runs.Along next Rising (new : Session Rat) [65535] := by simp [Runs.Along, Rising, new]
  have told := tells [65535] rising [65535] (List.prefix_refl _)
  have highest := told.highest 65535 rfl
  revert highest
  decide

end Session

end Sessions

end Rtp

end Flexicast
