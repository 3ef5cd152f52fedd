import Flexicast.Stream.RecvBuf

/-! What the receive buffer holds after chunks of a stream were written to it and read from it. -/

namespace Flexicast

namespace RecvBuf

open RangeBuf (Holds)

/-- An offset lies in a chunk. -/
def Spans (buf : RangeBuf) (x : Nat) : Prop := buf.curOff ≤ x ∧ x < buf.maxOff

/-- A chunk of the stream that nothing was read of, and that is empty at the end of the stream only. -/
structure Fresh (stream : Bytes) (buf : RangeBuf) : Prop where
  holds : Holds stream buf
  unread : buf.pos = buf.start
  marks : buf.isEmpty = true → buf.maxOff = stream.length

section Split

variable {stream : Bytes} {buf : RangeBuf}

theorem isEmpty_iff_maxOff (buf : RangeBuf) : buf.isEmpty = true ↔ buf.maxOff ≤ buf.curOff := by
  simp only [RangeBuf.isEmpty, RangeBuf.maxOff, beq_iff_eq]
  omega

theorem maxOff_le (holds : Holds stream buf) : buf.maxOff ≤ stream.length := by
  rw [holds.wf.maxOff_eq]
  exact holds.inside

/-- The offsets of the halves of a chunk that nothing was read of. -/
theorem splitOff_spans (fresh : Fresh stream buf) {mid : Nat} (low : buf.curOff < mid)
    (high : mid < buf.maxOff) :
    mid - buf.curOff ≤ buf.len ∧
      Fresh stream (buf.splitOff (mid - buf.curOff)).1 ∧ Fresh stream (buf.splitOff (mid - buf.curOff)).2 ∧
      (buf.splitOff (mid - buf.curOff)).1.curOff = buf.curOff ∧
      (buf.splitOff (mid - buf.curOff)).1.maxOff = mid ∧
      (buf.splitOff (mid - buf.curOff)).2.curOff = mid ∧
      (buf.splitOff (mid - buf.curOff)).2.maxOff = buf.maxOff := by
  have unread := fresh.unread
  have shifted := fresh.holds.wf.shifted
  have end_ := fresh.holds.wf.maxOff_eq
  have from_ := fresh.holds.wf.curOff_eq
  have within_ : mid - buf.curOff ≤ buf.len := by omega
  obtain ⟨first, second⟩ := fresh.holds.splitOff within_
  have start₁ : (buf.splitOff (mid - buf.curOff)).1.curOff = buf.curOff := by
    simp only [RangeBuf.splitOff, RangeBuf.curOff] at *
    omega
  have stop₁ : (buf.splitOff (mid - buf.curOff)).1.maxOff = mid := by
    rw [first.wf.maxOff_eq]
    simp only [RangeBuf.splitOff]
    omega
  have start₂ : (buf.splitOff (mid - buf.curOff)).2.curOff = mid := by
    rw [second.wf.curOff_eq]
    simp only [RangeBuf.splitOff]
    omega
  have stop₂ : (buf.splitOff (mid - buf.curOff)).2.maxOff = buf.maxOff := by
    rw [second.wf.maxOff_eq]
    simp only [RangeBuf.splitOff]
    omega
  refine ⟨within_, ⟨first, ?_, ?_⟩, ⟨second, ?_, ?_⟩, start₁, stop₁, start₂, stop₂⟩
  · simp only [RangeBuf.splitOff]
    omega
  · -- Neither half is empty.
    intro empty
    rw [isEmpty_iff_maxOff] at empty
    omega
  · simp only [RangeBuf.splitOff]
    omega
  · intro empty
    rw [isEmpty_iff_maxOff] at empty
    omega

end Split

/-- What is left of a new chunk once the chunks that are held were taken out of it. -/
structure Fits (stream : Bytes) (bufs : List RangeBuf) (buf : RangeBuf) (result : Option RangeBuf)
    (more : List RangeBuf) : Prop where
  /-- The part to be stored is a chunk of the stream, inside the new one. -/
  kept : ∀ part, result = some part →
    Fresh stream part ∧ buf.curOff ≤ part.curOff ∧ part.maxOff ≤ buf.maxOff
  apart : ∀ part, result = some part → ∀ held ∈ bufs, held.maxOff ≤ part.curOff ∨ part.maxOff ≤ held.curOff
  /-- It is empty only when the new chunk is, and nothing is held from there on. -/
  alone : ∀ part, result = some part → part.isEmpty = true → bufs = [] ∧ buf.isEmpty = true
  /-- Nothing is to be stored only when something is held from there on. -/
  stuck : result = none → bufs ≠ []
  /-- What is left for later are chunks with bytes, inside the new one. -/
  later : ∀ part ∈ more, Fresh stream part ∧ part.isEmpty = false ∧ buf.curOff ≤ part.curOff ∧
    part.maxOff ≤ buf.maxOff
  less : WorkQueue.load (fun part => part.curLen + 1) more ≤ buf.curLen
  whole : ∀ x, Spans buf x → (∃ part, result = some part ∧ Spans part x) ∨
    (∃ part ∈ more, Spans part x) ∨ ∃ held ∈ bufs, Spans held x

section Overlap

variable {stream : Bytes}

variable {bufs : List RangeBuf} {buf : RangeBuf}

theorem overlapLoop_clear (some_ : buf.curOff < buf.maxOff) (before : ∀ held ∈ bufs, buf.maxOff ≤ held.curOff)
    (pushed : List RangeBuf) : overlapLoop bufs buf pushed = some (some buf, pushed) := by
  induction bufs with
  | nil => rfl
  | cons held rest ih =>
    have here := before held List.mem_cons_self
    simp only [overlapLoop]
    by_cases past : buf.maxOff < held.curOff
    · rw [if_pos past]
    · -- The held chunk starts right behind the new one, and none of the overlaps is there.
      rw [if_neg past, if_neg (by omega), if_neg (by omega), if_neg (by omega)]
      exact ih fun other member => before other (List.mem_cons_of_mem _ member)

/-- A chunk that overlaps nothing is stored as it is. -/
theorem Fits.self (fresh : Fresh stream buf)
    (apart : ∀ held ∈ bufs, held.maxOff ≤ buf.curOff ∨ buf.maxOff ≤ held.curOff)
    (alone : buf.isEmpty = true → bufs = []) : Fits stream bufs buf (some buf) [] := by
  -- Nothing is left for later, and the part that is kept is the chunk itself.
  refine ⟨?_, ?_, ?_, by simp, by simp, by simp, fun x spans => Or.inl ⟨buf, rfl, spans⟩⟩
  · intro part same
    cases same
    exact ⟨fresh, Nat.le_refl _, Nat.le_refl _⟩
  · intro part same
    cases same
    exact apart
  · intro part same empty
    cases same
    exact ⟨alone empty, empty⟩

theorem Fits.contained {held : RangeBuf} (member : held ∈ bufs) (low : held.curOff ≤ buf.curOff)
    (high : buf.maxOff ≤ held.maxOff) : Fits stream bufs buf none [] := by
  refine ⟨by simp, by simp, by simp, fun _ => List.ne_nil_of_mem member, by simp, by simp,
    fun x spans => Or.inr (Or.inr ⟨held, member, ?_⟩)⟩
  unfold Spans at spans ⊢
  omega

/-- A held chunk may be passed over when the part that goes on is apart from it and misses only its bytes. -/
theorem Fits.cons {rest more : List RangeBuf} {part held : RangeBuf} {result : Option RangeBuf}
    (fits : Fits stream rest part result more) (low : buf.curOff ≤ part.curOff) (high : part.maxOff ≤ buf.maxOff)
    (some_ : part.curOff < part.maxOff) (apart : held.maxOff ≤ part.curOff ∨ part.maxOff ≤ held.curOff)
    (misses : ∀ x, Spans buf x → Spans part x ∨ Spans held x) : Fits stream (held :: rest) buf result more := by
  refine ⟨?_, ?_, ?_, by simp, ?_, ?_, ?_⟩
  · intro kept same
    obtain ⟨fresh, low', high'⟩ := fits.kept kept same
    exact ⟨fresh, by omega, by omega⟩
  · intro kept same other member
    obtain ⟨_, low', high'⟩ := fits.kept kept same
    rcases List.mem_cons.mp member with head | member
    · -- What is stored lies inside the part, which is apart from this chunk.
      subst head
      omega
    · exact fits.apart kept same other member
  · intro kept same empty
    have part_empty := (fits.alone kept same empty).2
    rw [isEmpty_iff_maxOff] at part_empty
    omega
  · intro other member
    obtain ⟨fresh, filled, low', high'⟩ := fits.later other member
    exact ⟨fresh, filled, by omega, by omega⟩
  · have less := fits.less
    unfold RangeBuf.maxOff at high some_
    have small : part.curLen ≤ buf.curLen := by omega
    exact Nat.le_trans less small
  · intro x spans
    rcases misses x spans with inside | held_
    · rcases fits.whole x inside with kept | later | ⟨other, member, covers⟩
      · exact Or.inl kept
      · exact Or.inr (Or.inl later)
      · exact Or.inr (Or.inr ⟨other, List.mem_cons_of_mem _ member, covers⟩)
    · exact Or.inr (Or.inr ⟨held, List.mem_cons_self, held_⟩)

/-- The loop takes what is held out of the new chunk. -/
theorem overlapLoop_spec (bufs : List RangeBuf) :
    ∀ (buf : RangeBuf) (pushed : List RangeBuf), Fresh stream buf →
      bufs.Pairwise (fun left right => left.maxOff ≤ right.curOff) →
      (∀ held ∈ bufs, Holds stream held) → (∀ held ∈ bufs, buf.curOff ≤ held.maxOff) →
      ∃ result more, overlapLoop bufs buf pushed = some (result, pushed ++ more) ∧
        Fits stream bufs buf result more := by
  -- The induction follows the chunks that are held, and the cases are those of the loop.
  induction bufs with
  | nil => exact fun buf pushed fresh _ _ _ =>
      ⟨some buf, [], by simp [overlapLoop], Fits.self fresh (by simp) (by simp)⟩
  | cons held rest ih =>
    intro buf pushed fresh sorted holds above
    obtain ⟨behind, tail⟩ := List.pairwise_cons.mp sorted
    have later : ∀ other ∈ rest, Holds stream other := fun other member =>
      holds other (List.mem_cons_of_mem _ member)
    have reach := above held List.mem_cons_self
    have short := maxOff_le (holds held List.mem_cons_self)
    have endHeld : held.curOff ≤ held.maxOff := Nat.le_add_right _ _
    have endBuf : buf.curOff ≤ buf.maxOff := Nat.le_add_right _ _
    have marks : buf.maxOff ≤ buf.curOff → buf.maxOff = stream.length := fun empty =>
      fresh.marks ((isEmpty_iff_maxOff buf).mpr empty)
    simp only [overlapLoop]
    by_cases past : buf.maxOff < held.curOff
    · -- Everything that is held starts behind the new chunk.
      rw [if_pos past]
      refine ⟨some buf, [], by simp, Fits.self fresh ?_ ?_⟩
      · intro other member
        rcases List.mem_cons.mp member with same | member
        · rw [same]
          omega
        · have := behind other member
          omega
      · rw [isEmpty_iff_maxOff]
        omega
    rw [if_neg past]
    by_cases inside : held.curOff ≤ buf.curOff ∧ buf.maxOff ≤ held.maxOff
    · rw [if_pos inside]
      exact ⟨none, [], by simp, Fits.contained List.mem_cons_self inside.1 inside.2⟩
    rw [if_neg inside]
    -- An empty chunk marks the end of the stream, and would have been contained.
    have some_ : buf.curOff < buf.maxOff := by omega
    by_cases front : held.curOff ≤ buf.curOff ∧ buf.curOff < held.maxOff
    · -- The second half of the new chunk goes on, from the end of the held one.
      obtain ⟨within_, _, fresh', _, _, start, stop⟩ :=
        splitOff_spans fresh front.2 (show held.maxOff < buf.maxOff by omega)
      rw [if_pos front, if_neg (by omega)]
      obtain ⟨result, more, ran, fits⟩ := ih _ pushed fresh' tail later fun other member => by
        have := behind other member
        have : other.curOff ≤ other.maxOff := Nat.le_add_right _ _
        omega
      refine ⟨result, more, ran, fits.cons (by omega) (by omega) (by omega) (by omega) fun x spans => ?_⟩
      unfold Spans at spans ⊢
      omega
    rw [if_neg front]
    by_cases back : buf.curOff < held.curOff ∧ held.curOff < buf.maxOff
    · -- The first half goes in, and the second half is left for later.
      obtain ⟨within_, fresh₁, fresh₂, start₁, stop₁, start₂, stop₂⟩ := splitOff_spans fresh back.1 back.2
      have before : ∀ other ∈ rest, held.curOff ≤ other.curOff := fun other member =>
        Nat.le_trans endHeld (behind other member)
      rw [if_pos back, if_neg (by omega), overlapLoop_clear (by omega) fun other member => by
        have := before other member
        omega]
      refine ⟨_, [_], rfl, ⟨?_, ?_, ?_, by simp, ?_, ?_, ?_⟩⟩
      · intro part same
        cases same
        exact ⟨fresh₁, by omega, by omega⟩
      · intro part same other member
        cases same
        rcases List.mem_cons.mp member with same | member
        · rw [same]
          omega
        · have := before other member
          omega
      · intro part same
        cases same
        rw [isEmpty_iff_maxOff]
        omega
      · intro part member
        rw [List.mem_singleton] at member
        rw [member]
        refine ⟨fresh₂, ?_, by omega, by omega⟩
        rw [← Bool.not_eq_true, isEmpty_iff_maxOff]
        omega
      · rw [WorkQueue.load_cons, WorkQueue.load_nil]
        unfold RangeBuf.maxOff at stop₂
        omega
      · intro x spans
        by_cases first : x < held.curOff
        · refine Or.inl ⟨_, rfl, ?_⟩
          unfold Spans at spans ⊢
          omega
        · refine Or.inr (Or.inl ⟨_, List.mem_singleton.mpr rfl, ?_⟩)
          unfold Spans at spans ⊢
          omega
    · -- The held chunk only touches the new one.
      rw [if_neg back]
      obtain ⟨result, more, ran, fits⟩ := ih buf pushed fresh tail later fun other member =>
        above other (List.mem_cons_of_mem _ member)
      exact ⟨result, more, ran,
        fits.cons (Nat.le_refl _) (Nat.le_refl _) some_ (by omega) fun x spans => Or.inl spans⟩

end Overlap

/-- A receive buffer that holds chunks of a stream, from the offset that is read next on. -/
structure Shape (stream : Bytes) (recv : RecvBuf) : Prop where
  holds : ∀ entry ∈ recv.data.entries, Holds stream entry.2
  keyed : ∀ entry ∈ recv.data.entries, entry.1 = entry.2.maxOff
  apart : recv.data.entries.Pairwise fun left right => left.1 ≤ right.2.curOff
  above : ∀ entry ∈ recv.data.entries, recv.off ≤ entry.2.curOff
  marks : ∀ entry ∈ recv.data.entries, entry.2.isEmpty = true → entry.1 = stream.length
  /-- Nothing is held beyond the largest offset received. -/
  reach : ∀ entry ∈ recv.data.entries, entry.1 ≤ recv.len
  read : recv.off ≤ recv.len
  /-- Nothing was received beyond the end of the stream. -/
  inside : recv.len ≤ stream.length
  final : ∀ finOff, recv.finOff = some finOff → finOff = stream.length
  /-- The stream was neither reset nor shut down. -/
  running : recv.error = none ∧ recv.drain = false

/-- An offset was read or is held. -/
def Has (recv : RecvBuf) (x : Nat) : Prop :=
  x < recv.off ∨ ∃ entry ∈ recv.data.entries, Spans entry.2 x

section Store

variable {stream : Bytes} {recv : RecvBuf}

/-- Two entries of a buffer are the same, or one ends before the other starts. -/
theorem Shape.disjoint (shape : Shape stream recv) {one other : Nat × RangeBuf}
    (first : one ∈ recv.data.entries) (second : other ∈ recv.data.entries) (less : one.1 < other.1) :
    one.1 ≤ other.2.curOff := by
  -- The keys are ascending, so the smaller one comes first in the list.
  obtain ⟨i, hi, atI⟩ := List.getElem_of_mem first
  obtain ⟨j, hj, atJ⟩ := List.getElem_of_mem second
  have sorted := List.pairwise_iff_getElem.mp recv.data.sorted
  rcases Nat.lt_trichotomy i j with before | same | after
  · have := List.pairwise_iff_getElem.mp shape.apart i j hi hj before
    rw [atI, atJ] at this
    exact this
  · subst same
    rw [atI] at atJ
    rw [atJ] at less
    omega
  · have := sorted j i hj hi after
    rw [atI, atJ] at this
    omega

variable {buf part : RangeBuf}

/-- A chunk that overlaps nothing is stored, and then held. -/
theorem Shape.storeChunk (shape : Shape stream recv) (fresh : Fresh stream buf) (front : recv.off ≤ buf.curOff)
    (apart : ∀ entry ∈ recv.data.entries, entry.1 ≤ buf.curOff ∨ buf.maxOff ≤ entry.2.curOff)
    (alone : buf.isEmpty = true → ∀ entry ∈ recv.data.entries, entry.1 ≠ buf.maxOff) :
    Shape stream (recv.storeChunk buf) ∧
      ∀ x, Has (recv.storeChunk buf) x ↔ Has recv x ∨ Spans buf x := by
  have open_ := shape.running.2
  have short := maxOff_le fresh.holds
  have grows : buf.curOff ≤ buf.maxOff := Nat.le_add_right _ _
  have data : (recv.storeChunk buf).data = recv.data.insert buf.maxOff buf := by
    simp [RecvBuf.storeChunk, open_]
  have inside := shape.inside
  have read := shape.read
  constructor
  · refine ⟨?_, ?_, ?_, ?_, ?_, ?_, ?_, ?_, shape.final, shape.running⟩
    · rw [data]
      intro entry member
      rcases OrdMap.mem_insert_iff.mp member with new | ⟨old, _⟩
      · rw [new]
        exact fresh.holds
      · exact shape.holds entry old
    · rw [data]
      intro entry member
      rcases OrdMap.mem_insert_iff.mp member with new | ⟨old, _⟩
      · rw [new]
      · exact shape.keyed entry old
    · -- The keys are in order, and two entries with keys in order do not overlap.
      rw [data]
      refine (recv.data.insert buf.maxOff buf).sorted.imp_of_mem ?_
      intro left right memberLeft memberRight less
      rcases OrdMap.mem_insert_iff.mp memberLeft with newLeft | ⟨oldLeft, _⟩
      · rcases OrdMap.mem_insert_iff.mp memberRight with newRight | ⟨oldRight, _⟩
        · rw [newLeft, newRight] at less
          omega
        · rw [newLeft] at less ⊢
          have keyed := shape.keyed right oldRight
          rcases apart right oldRight with this | this
          · simp only at less
            omega
          · exact this
      · rcases OrdMap.mem_insert_iff.mp memberRight with newRight | ⟨oldRight, _⟩
        · rw [newRight] at less ⊢
          have keyed := shape.keyed left oldLeft
          have : left.2.curOff ≤ left.2.maxOff := Nat.le_add_right _ _
          simp only at less ⊢
          rcases apart left oldLeft with this | this
          · exact this
          · omega
        · exact shape.disjoint oldLeft oldRight less
    · rw [data]
      intro entry member
      rcases OrdMap.mem_insert_iff.mp member with new | ⟨old, _⟩
      · rw [new]
        exact front
      · exact shape.above entry old
    · rw [data]
      intro entry member
      rcases OrdMap.mem_insert_iff.mp member with new | ⟨old, _⟩
      · rw [new]
        exact fresh.marks
      · exact shape.marks entry old
    · rw [data]
      intro entry member
      show entry.1 ≤ max recv.len buf.maxOff
      rcases OrdMap.mem_insert_iff.mp member with new | ⟨old, _⟩
      · rw [new]
        simp only
        omega
      · have := shape.reach entry old
        omega
    · show recv.off ≤ max recv.len buf.maxOff
      omega
    · show max recv.len buf.maxOff ≤ stream.length
      omega
  · intro x
    unfold Has
    rw [data]
    show x < recv.off ∨ _ ↔ _
    constructor
    · intro either
      rcases either with below | ⟨entry, member, spans⟩
      · exact Or.inl (Or.inl below)
      · rcases OrdMap.mem_insert_iff.mp member with new | ⟨old, _⟩
        · rw [new] at spans
          exact Or.inr spans
        · exact Or.inl (Or.inr ⟨entry, old, spans⟩)
    · intro either
      rcases either with (below | ⟨entry, member, spans⟩) | spans
      · exact Or.inl below
      · by_cases same : entry.1 = buf.maxOff
        · -- The entry that is replaced holds no bytes.
          have keyed := shape.keyed entry member
          unfold Spans at spans
          rcases apart entry member with this | this
          · have empty : buf.isEmpty = true := (isEmpty_iff_maxOff buf).mpr (by omega)
            exact absurd same (alone empty entry member)
          · omega
        · exact Or.inr ⟨entry, OrdMap.mem_insert_iff.mpr (Or.inr ⟨member, same⟩), spans⟩
      · exact Or.inr ⟨(buf.maxOff, buf), OrdMap.mem_insert_iff.mpr (Or.inl rfl), spans⟩

/-- A part of a new chunk that is still to be stored. -/
structure Task (stream : Bytes) (off : Nat) (buf : RangeBuf) : Prop where
  /-- It is a chunk of the stream that nothing was read of. -/
  fresh : Fresh stream buf
  unread : buf.isEmpty = false → off < buf.maxOff

/-- What was read is cut off from a new chunk. -/
theorem Shape.discardRead (shape : Shape stream recv) (task : Task stream recv.off buf) :
    ∃ part, recv.discardRead buf = some part ∧ Fresh stream part ∧ recv.off ≤ part.curOff ∧
      buf.curOff ≤ part.curOff ∧ part.maxOff = buf.maxOff ∧ part.isEmpty = buf.isEmpty ∧
      ∀ x, Spans buf x → Spans part x ∨ x < recv.off := by
  have fresh := task.fresh
  have read := shape.read
  have inside := shape.inside
  unfold RecvBuf.discardRead RecvBuf.offFront
  by_cases low : buf.curOff < recv.off
  · -- An empty chunk is not below what was read, so there are bytes behind the cut.
    have filled : buf.isEmpty = false := by
      rw [← Bool.not_eq_true]
      intro empty
      have := fresh.marks empty
      rw [isEmpty_iff_maxOff] at empty
      omega
    obtain ⟨within_, _, fresh', _, _, start, stop⟩ := splitOff_spans fresh low (task.unread filled)
    rw [if_pos low, if_neg (by omega)]
    refine ⟨_, rfl, fresh', by omega, by omega, stop, ?_, ?_⟩
    · rw [filled, ← Bool.not_eq_true, isEmpty_iff_maxOff]
      have := task.unread filled
      omega
    · intro x spans
      unfold Spans at spans ⊢
      omega
  · rw [if_neg low]
    exact ⟨buf, rfl, fresh, by omega, Nat.le_refl _, rfl, rfl, fun x spans => Or.inl spans⟩

/-- What a part of a new chunk overlaps, and what is left of it. -/
theorem Shape.overlaps (shape : Shape stream recv) (fresh : Fresh stream part) :
    ∃ result more,
      (if decide (part.curOff < recv.maxOff) || part.isEmpty then
        overlapLoop ((recv.data.entries.filter fun entry => decide (part.curOff ≤ entry.1)).map Prod.snd)
          part []
      else some (some part, [])) = some (result, more) ∧
      Fits stream ((recv.data.entries.filter fun entry => decide (part.curOff ≤ entry.1)).map Prod.snd)
        part result more := by
  by_cases runs : (decide (part.curOff < recv.maxOff) || part.isEmpty) = true
  · rw [if_pos runs]
    obtain ⟨result, more, ran, fits⟩ := overlapLoop_spec
      ((recv.data.entries.filter fun entry => decide (part.curOff ≤ entry.1)).map Prod.snd) part [] fresh
      (by
        rw [List.pairwise_map]
        refine (shape.apart.filter _).imp_of_mem ?_
        intro left right memberLeft _ before
        rw [← shape.keyed left (List.mem_filter.mp memberLeft).1]
        exact before)
      (by
        intro held member
        obtain ⟨entry, listed, same⟩ := List.mem_map.mp member
        rw [← same]
        exact shape.holds entry (List.mem_filter.mp listed).1)
      (by
        intro held member
        obtain ⟨entry, listed, same⟩ := List.mem_map.mp member
        obtain ⟨listed, late⟩ := List.mem_filter.mp listed
        rw [← same, ← shape.keyed entry listed]
        exact of_decide_eq_true late)
    exact ⟨result, more, by simpa using ran, fits⟩
  · -- Everything that is held ends before the chunk.
    rw [if_neg runs]
    have late : recv.len ≤ part.curOff := by
      refine Nat.le_of_not_lt fun low => runs ?_
      rw [Bool.or_eq_true]
      exact Or.inl (decide_eq_true low)
    refine ⟨some part, [], rfl, Fits.self fresh ?_ fun empty => absurd (by rw [empty, Bool.or_true]) runs⟩
    intro held member
    obtain ⟨entry, listed, same⟩ := List.mem_map.mp member
    obtain ⟨listed, _⟩ := List.mem_filter.mp listed
    have := shape.reach entry listed
    rw [← same, ← shape.keyed entry listed]
    omega

/-- What a turn of the loop of `write` does. -/
structure Turned (stream : Bytes) (recv after : RecvBuf) (buf : RangeBuf) (more : List RangeBuf) : Prop where
  shape : Shape stream after
  /-- Only the chunks and the largest offset change. -/
  frame : after = { recv with data := after.data, len := after.len }
  /-- The chunk is stored as far as it is not left for later. -/
  has : ∀ x, Has after x ∨ (∃ part ∈ more, Spans part x) ↔ Has recv x ∨ Spans buf x
  later : ∀ part ∈ more, Task stream recv.off part
  less : WorkQueue.load (fun part => part.curLen + 1) more < buf.curLen + 1
  /-- Something is held if it was, or if the chunk is the empty final one. -/
  some_ : recv.data.entries ≠ [] ∨ buf.isEmpty = true → after.data.entries ≠ []

theorem Fits.tasks {bufs more : List RangeBuf} {result : Option RangeBuf} {off : Nat}
    (fits : Fits stream bufs part result more) (front : off ≤ part.curOff) : ∀ piece ∈ more, Task stream off piece := by
  -- Parts left for later have bytes, all of them above the offset that is read next.
  intro piece member
  obtain ⟨fresh, filled, low, _⟩ := fits.later piece member
  have some_ : ¬ piece.maxOff ≤ piece.curOff := fun empty => by
    rw [(isEmpty_iff_maxOff piece).mpr empty] at filled
    simp at filled
  exact ⟨fresh, fun _ => by omega⟩

/-- The part to be stored is apart from every chunk, also from those that the loop does not visit. -/
theorem Shape.room (shape : Shape stream recv) {kept : RangeBuf} {more : List RangeBuf}
    (fits : Fits stream ((recv.data.entries.filter fun entry => decide (part.curOff ≤ entry.1)).map Prod.snd)
      part (some kept) more) :
    (∀ entry ∈ recv.data.entries, entry.1 ≤ kept.curOff ∨ kept.maxOff ≤ entry.2.curOff) ∧
      (kept.isEmpty = true → ∀ entry ∈ recv.data.entries, entry.1 ≠ kept.maxOff) := by
  -- A chunk that the loop does not visit ends before the part starts.
  obtain ⟨_, low, _⟩ := fits.kept kept rfl
  have visited : ∀ entry ∈ recv.data.entries, part.curOff ≤ entry.1 →
      entry.2 ∈ (recv.data.entries.filter fun entry => decide (part.curOff ≤ entry.1)).map Prod.snd :=
    fun entry member late => List.mem_map.mpr ⟨entry, List.mem_filter.mpr ⟨member, decide_eq_true late⟩, rfl⟩
  constructor
  · intro entry member
    by_cases late : part.curOff ≤ entry.1
    · rw [shape.keyed entry member]
      exact fits.apart kept rfl entry.2 (visited entry member late)
    · omega
  · intro empty entry member same
    have grows : kept.curOff ≤ kept.maxOff := Nat.le_add_right _ _
    have none_ := (fits.alone kept rfl empty).1
    have listed := visited entry member (by omega)
    rw [none_] at listed
    simp at listed

/-- A turn stores the new bytes of a chunk. -/
theorem Shape.writeTurn (shape : Shape stream recv) (task : Task stream recv.off buf) :
    ∃ after more, writeTurn buf recv = .next after more ∧ Turned stream recv after buf more := by
  obtain ⟨part, cut, fresh, front, low, stop, empties, misses⟩ := shape.discardRead task
  obtain ⟨result, more, ran, fits⟩ := shape.overlaps fresh
  have less : WorkQueue.load (fun piece => piece.curLen + 1) more < buf.curLen + 1 := by
    have := fits.less
    unfold RangeBuf.maxOff at stop
    omega
  -- What is left for later lies inside the chunk.
  have inside : ∀ x, (∃ piece ∈ more, Spans piece x) → Spans buf x := by
    intro x given
    obtain ⟨piece, member, spans⟩ := given
    obtain ⟨_, _, low', high'⟩ := fits.later piece member
    unfold Spans at spans ⊢
    omega
  -- What of the chunk is neither stored nor left for later is held, or was read.
  have covers : ∀ x, Spans buf x → Has recv x ∨ (∃ piece ∈ more, Spans piece x) ∨
      ∃ kept, result = some kept ∧ Spans kept x := by
    intro x spans
    rcases misses x spans with spans | below
    · rcases fits.whole x spans with kept | later | ⟨held, member, covered⟩
      · exact Or.inr (Or.inr kept)
      · exact Or.inr (Or.inl later)
      · obtain ⟨entry, listed, same⟩ := List.mem_map.mp member
        exact Or.inl (Or.inr ⟨entry, (List.mem_filter.mp listed).1, by rw [same]; exact covered⟩)
    · exact Or.inl (Or.inl below)
  cases result with
  | none =>
    refine ⟨recv, more, by rw [RecvBuf.writeTurn, cut]; simp only [ran],
      ⟨shape, rfl, ?_, fits.tasks front, less, ?_⟩⟩
    · intro x
      constructor
      · exact fun either => either.imp id (inside x)
      · intro either
        rcases either with has | spans
        · exact Or.inl has
        · rcases covers x spans with has | later | ⟨_, none_, _⟩
          · exact Or.inl has
          · exact Or.inr later
          · cases none_
    · -- The chunk that contains the new one is held.
      intro _ none_
      refine fits.stuck rfl ?_
      rw [none_]
      rfl
  | some kept =>
    obtain ⟨fresh', low', high'⟩ := fits.kept kept rfl
    obtain ⟨apart, alone⟩ := shape.room fits
    obtain ⟨shape', has⟩ := shape.storeChunk fresh' (by omega) apart alone
    refine ⟨recv.storeChunk kept, more, by rw [RecvBuf.writeTurn, cut]; simp only [ran],
      ⟨shape', rfl, ?_, fits.tasks front, less, ?_⟩⟩
    · intro x
      rw [has]
      constructor
      · intro either
        rcases either with (has | spans) | later
        · exact Or.inl has
        · refine Or.inr ?_
          unfold Spans at spans ⊢
          omega
        · exact Or.inr (inside x later)
      · intro either
        rcases either with has | spans
        · exact Or.inl (Or.inl has)
        · rcases covers x spans with has | later | ⟨stored, same, spans⟩
          · exact Or.inl (Or.inl has)
          · exact Or.inr later
          · cases same
            exact Or.inl (Or.inr spans)
    · intro _
      have open_ := shape.running.2
      have data : (recv.storeChunk kept).data = recv.data.insert kept.maxOff kept := by
        simp [RecvBuf.storeChunk, open_]
      rw [data]
      exact List.ne_nil_of_mem (OrdMap.mem_insert_iff.mpr (Or.inl rfl))

/-- What holds while the parts of a new chunk are stored. -/
structure Storing (stream : Bytes) (recv : RecvBuf) (buf : RangeBuf) (queue : List RangeBuf)
    (state : RecvBuf) : Prop where
  shape : Shape stream state
  /-- Only the chunks and the largest offset change. -/
  frame : state = { recv with data := state.data, len := state.len }
  tasks : ∀ part ∈ queue, Task stream recv.off part
  has : ∀ x, Has state x ∨ (∃ part ∈ queue, Spans part x) ↔ Has recv x ∨ Spans buf x
  /-- Something is held if it was, or if the chunk is the empty final one. -/
  some_ : recv.data.entries ≠ [] ∨ buf.isEmpty = true →
    state.data.entries ≠ [] ∨ ∃ part ∈ queue, part.isEmpty = true

/-- A turn goes on storing the new chunk. -/
theorem Storing.turn {item : RangeBuf} {queue : List RangeBuf} {state : RecvBuf}
    (storing : Storing stream recv buf (item :: queue) state) :
    ∃ after more, writeTurn item state = .next after more ∧
      Storing stream recv buf (queue ++ more) after ∧
      WorkQueue.load (fun part => part.curLen + 1) more < item.curLen + 1 := by
  have off : state.off = recv.off := by rw [storing.frame]
  have task := storing.tasks item List.mem_cons_self
  rw [← off] at task
  obtain ⟨after, more, ran, turned⟩ := storing.shape.writeTurn task
  refine ⟨after, more, ran, ⟨turned.shape, ?_, ?_, ?_, ?_⟩, turned.less⟩
  · rw [turned.frame, storing.frame]
  · intro part member
    rcases List.mem_append.mp member with queued | left
    · exact storing.tasks part (List.mem_cons_of_mem _ queued)
    · rw [← off]
      exact turned.later part left
  · -- The turn moves the bytes of its part from the queue to the buffer, or back to the queue.
    intro x
    rw [← storing.has x]
    have moved := turned.has x
    constructor
    · intro either
      rcases either with has | ⟨part, member, spans⟩
      · rcases moved.mp (Or.inl has) with has | spans
        · exact Or.inl has
        · exact Or.inr ⟨item, List.mem_cons_self, spans⟩
      · rcases List.mem_append.mp member with queued | left
        · exact Or.inr ⟨part, List.mem_cons_of_mem _ queued, spans⟩
        · rcases moved.mp (Or.inr ⟨part, left, spans⟩) with has | spans
          · exact Or.inl has
          · exact Or.inr ⟨item, List.mem_cons_self, spans⟩
    · have again : Has state x ∨ Spans item x →
          Has after x ∨ ∃ part ∈ queue ++ more, Spans part x := fun either =>
        (moved.mpr either).imp id fun ⟨part, left, spans⟩ =>
          ⟨part, List.mem_append.mpr (Or.inr left), spans⟩
      intro either
      rcases either with has | ⟨part, member, spans⟩
      · exact again (Or.inl has)
      · rcases List.mem_cons.mp member with same | queued
        · rw [same] at spans
          exact again (Or.inr spans)
        · exact Or.inr ⟨part, List.mem_append.mpr (Or.inl queued), spans⟩
  · intro either
    rcases storing.some_ either with held | ⟨part, member, empty⟩
    · exact Or.inl (turned.some_ (Or.inl held))
    · rcases List.mem_cons.mp member with same | queued
      · rw [same] at empty
        exact Or.inl (turned.some_ (Or.inr empty))
      · exact Or.inr ⟨part, List.mem_append.mpr (Or.inl queued), empty⟩

/-- A chunk of the stream, as a peer that follows the protocol sends it. -/
structure Sound (stream : Bytes) (buf : RangeBuf) : Prop where
  holds : Holds stream buf
  unread : buf.pos = buf.start
  final : buf.fin = true → buf.maxOff = stream.length

/-- What a write of a chunk of the stream does. -/
structure Written (stream : Bytes) (recv after : RecvBuf) (buf : RangeBuf) : Prop where
  shape : Shape stream after
  /-- Only the chunks, the largest offset and the final offset change. -/
  frame : after =
    { recv with
      data := after.data
      len := after.len
      finOff := if buf.fin then some stream.length else recv.finOff }
  /-- The bytes of the chunk are held as well. -/
  has : ∀ x, Has after x ↔ Has recv x ∨ Spans buf x
  /-- Something is held if it was, or if the chunk is the first empty final one. -/
  some_ : recv.data.entries ≠ [] ∨ (recv.finOff = none ∧ buf.fin = true ∧ buf.isEmpty = true) →
    after.data.entries ≠ []

/-- A chunk that is still to be stored is queued as a whole. -/
theorem Storing.start (shape : Shape stream recv) (task : Task stream recv.off buf) :
    Storing stream recv buf [buf] recv := by
  -- Nothing was stored yet, so the queue still spans all of the chunk.
  refine ⟨shape, rfl, ?_, ?_, ?_⟩
  · intro part member
    rw [List.mem_singleton] at member
    rw [member]
    exact task
  · intro x
    simp
  · exact fun either => either.imp id fun empty => ⟨buf, List.mem_singleton.mpr rfl, empty⟩

theorem Shape.storeAll (shape : Shape stream recv) (task : Task stream recv.off buf) :
    ∃ after, WorkQueue.drain RecvBuf.writeTurn (buf.curLen + 1) [buf] recv = some after ∧
      Storing stream recv buf [] after :=
  -- Each turn goes on storing what is queued, and leaves less of it behind.
  WorkQueue.drain_keeps (fun _ _ _ => Storing.turn) _ _ _ (Storing.start shape task) (by simp)

theorem finConflict_eq_false
    (known : ∀ finOff, recv.finOff = some finOff → buf.maxOff ≤ finOff ∧ (buf.fin = true → finOff = buf.maxOff))
    (size : buf.fin = true → recv.len ≤ buf.maxOff) : recv.finConflict buf = false := by
  -- The three tests: beyond the final offset, a second one, and one below what was received.
  have size' : buf.fin = true → ¬ buf.maxOff < recv.len := fun fin => Nat.not_lt.mpr (size fin)
  unfold RecvBuf.finConflict
  cases final : recv.finOff with
  | none => simpa using size
  | some finOff =>
    obtain ⟨short, ends⟩ := known finOff final
    simp only [Bool.or_eq_false_iff, decide_eq_false_iff_not, Bool.and_eq_false_imp, bne_eq_false_iff_eq]
    exact ⟨⟨Nat.not_lt.mpr short, ends⟩, size'⟩

theorem Shape.finConflict (shape : Shape stream recv) (sound : Sound stream buf) : recv.finConflict buf = false := by
  -- The only final offset that a chunk of the stream can bring is the end of the stream.
  have short := maxOff_le sound.holds
  apply finConflict_eq_false
  · intro finOff known
    rw [shape.final finOff known]
    exact ⟨short, fun fin => (sound.final fin).symm⟩
  · intro fin
    rw [sound.final fin]
    exact shape.inside

/-- Recording the final offset that a chunk brings touches no data. -/
theorem Shape.record (shape : Shape stream recv) (sound : Sound stream buf) :
    (if buf.fin = true then { recv with finOff := some buf.maxOff } else recv) =
        { recv with finOff := if buf.fin then some stream.length else recv.finOff } ∧
      Shape stream { recv with finOff := if buf.fin then some stream.length else recv.finOff } := by
  -- Only the final offset changes, to the end of the stream.
  constructor
  · cases ends : buf.fin with
    | false => rfl
    | true => rw [sound.final ends]; rfl
  · refine ⟨shape.holds, shape.keyed, shape.apart, shape.above, shape.marks, shape.reach, shape.read,
      shape.inside, ?_, shape.running⟩
    intro finOff known
    cases ends : buf.fin with
    | false =>
      rw [ends] at known
      exact shape.final finOff known
    | true =>
      rw [ends] at known
      exact (Option.some.inj known).symm

theorem not_spans_of_empty (empty : buf.isEmpty = true) (x : Nat) : ¬ Spans buf x := by
  rw [isEmpty_iff_maxOff] at empty
  unfold Spans
  omega

/-- A chunk of the stream is accepted, and then held. -/
theorem Shape.write (shape : Shape stream recv) (sound : Sound stream buf) (flow : buf.maxOff ≤ recv.maxData) :
    ∃ after, recv.write buf = .ok after ∧ Written stream recv after buf := by
  have conflict := shape.finConflict sound
  obtain ⟨recorded, shape'⟩ := shape.record sound
  unfold RecvBuf.write
  rw [if_neg (by omega), if_neg (by simp [conflict])]
  by_cases known : (recv.finOff.isSome && buf.isEmpty) = true
  · -- The final size is known, and an empty chunk changes nothing.
    rw [if_pos known]
    obtain ⟨known, empty⟩ := Bool.and_eq_true_iff.mp known
    obtain ⟨finOff, known⟩ := Option.isSome_iff_exists.mp known
    refine ⟨recv, rfl, ⟨shape, ?_, fun x => by simp [not_spans_of_empty empty], ?_⟩⟩
    · rw [shape.final finOff known] at known
      rw [← known, ite_self]
    · intro either
      rcases either with held | ⟨unknown, _⟩
      · exact held
      · rw [known] at unknown
        cases unknown
  rw [if_neg known, recorded]
  by_cases nothing : (!buf.fin && buf.isEmpty) = true
  · -- An empty chunk that is not final brings nothing.
    obtain ⟨notFin, empty⟩ := Bool.and_eq_true_iff.mp nothing
    simp only [nothing, if_true]
    refine ⟨_, rfl, ⟨shape', rfl, fun x => by simp [Has, not_spans_of_empty empty], ?_⟩⟩
    intro either
    rcases either with held | ⟨_, fin, _⟩
    · exact held
    · simp [fin] at notFin
  simp only [nothing, Bool.false_eq_true, if_false]
  by_cases old : (decide (buf.maxOff ≤ recv.off) && !buf.isEmpty) = true
  · -- The chunk was read as a whole.
    obtain ⟨low, filled⟩ := Bool.and_eq_true_iff.mp old
    simp only [old, if_true]
    have low := of_decide_eq_true low
    refine ⟨_, rfl, ⟨shape', rfl, fun x => ?_, ?_⟩⟩
    · constructor
      · exact Or.inl
      · intro either
        rcases either with has | spans
        · exact has
        · left
          unfold Spans at spans
          exact Nat.lt_of_lt_of_le spans.2 low
    · intro either
      rcases either with held | ⟨_, _, empty⟩
      · exact held
      · simp [empty] at filled
  simp only [old, Bool.false_eq_true, if_false]
  have task : Task stream recv.off buf := by
    refine ⟨⟨sound.holds, sound.unread, fun empty => ?_⟩, fun filled => ?_⟩
    · refine sound.final ?_
      simpa [empty] using nothing
    · simpa [filled] using old
  obtain ⟨after, drained, storing⟩ := shape'.storeAll task
  refine ⟨after, by rw [drained], ⟨storing.shape, storing.frame, fun x => ?_, ?_⟩⟩
  · simpa [Has] using storing.has x
  · intro either
    rcases either with held | ⟨_, _, empty⟩
    · simpa using storing.some_ (Or.inl held)
    · simpa using storing.some_ (Or.inr empty)

end Store

section Read

variable {stream : Bytes} {recv : RecvBuf}

theorem ready_iff : recv.ready = true ↔
    ∃ key buf, recv.data.entries.head? = some (key, buf) ∧ buf.curOff = recv.off := by
  unfold RecvBuf.ready
  cases first : recv.data.entries.head? with
  | none => simp
  | some entry =>
    simp only [beq_iff_eq, Option.some.injEq]
    exact ⟨fun front => ⟨entry.1, entry.2, rfl, front⟩, fun ⟨key, buf, same, front⟩ => by
      rw [same]
      exact front⟩

/-- An offset that is held and is read next makes the buffer ready, with something to read. -/
theorem Shape.ready_of_has (shape : Shape stream recv) (has : Has recv recv.off) :
    ∃ key buf, recv.data.entries.head? = some (key, buf) ∧ buf.curOff = recv.off ∧ buf.isEmpty = false := by
  rcases has with below | ⟨entry, member, low, high⟩
  · omega
  · have front := shape.above entry member
    have keyed := shape.keyed entry member
    cases listed : recv.data.entries with
    | nil =>
      rw [listed] at member
      simp at member
    | cons first rest =>
      have among : first ∈ recv.data.entries := by
        rw [listed]
        exact List.mem_cons_self
      have same : entry = first := by
        -- A first chunk in front of this one would be empty, and the stream would end there.
        refine Classical.byContradiction fun other => ?_
        have later : entry ∈ rest := by
          rw [listed] at member
          exact (List.mem_cons.mp member).resolve_left other
        have apart := shape.apart
        rw [listed] at apart
        have before := (List.pairwise_cons.mp apart).1 entry later
        have above := shape.above first among
        have end_ := shape.keyed first among
        have : first.2.curOff ≤ first.2.maxOff := Nat.le_add_right _ _
        have marked := shape.marks first among ((isEmpty_iff_maxOff _).mpr (by omega))
        have := maxOff_le (shape.holds entry member)
        omega
      refine ⟨first.1, first.2, rfl, ?_, ?_⟩
      · rw [← same]
        omega
      · rw [← Bool.not_eq_true, isEmpty_iff_maxOff, ← same]
        omega

/-- What reading from a buffer does to it, and what it returns. -/
structure Read (stream : Bytes) (recv after : RecvBuf) (out : Bytes) (capacity : Nat) : Prop where
  shape : Shape stream after
  /-- Only the chunks and the offset that is read next change. -/
  frame : after = { recv with data := after.data, off := recv.off + out.length }
  bytes : out = (stream.drop recv.off).take out.length
  fits : out.length ≤ capacity
  has : ∀ x, Has after x ↔ Has recv x

theorem Read.refl (shape : Shape stream recv) (capacity : Nat) : Read stream recv recv [] capacity :=
  ⟨shape, rfl, by simp, Nat.zero_le _, fun _ => Iff.rfl⟩

/-- Two reads in a row are one. -/
theorem Read.trans {mid after : RecvBuf} {first second : Bytes} {capacity rest : Nat}
    (one : Read stream recv mid first capacity) (two : Read stream mid after second rest)
    (room : first.length + rest ≤ capacity) : Read stream recv after (first ++ second) capacity := by
  have off : mid.off = recv.off + first.length := by rw [one.frame]
  refine ⟨two.shape, ?_, ?_, ?_, fun x => (two.has x).trans (one.has x)⟩
  · rw [two.frame, one.frame, List.length_append]
    simp only [Nat.add_assoc]
  · -- The second read goes on where the first one ended.
    have bytes := two.bytes
    rw [off] at bytes
    rw [List.length_append, List.take_add, List.drop_drop, ← bytes, ← one.bytes]
  · have := two.fits
    rw [List.length_append]
    omega

variable {key : Nat} {buf : RangeBuf} {rest : List (Nat × RangeBuf)}

/-- The first chunk ends before every other one starts. -/
theorem Shape.first (shape : Shape stream recv) (listed : recv.data.entries = (key, buf) :: rest) :
    key = buf.maxOff ∧ Holds stream buf ∧ key ≤ recv.len ∧ ∀ entry ∈ rest, key ≤ entry.2.curOff := by
  -- The first key is the end of the first chunk, and all other chunks lie behind it.
  have member : (key, buf) ∈ recv.data.entries := by
    rw [listed]
    exact List.mem_cons_self
  have apart := shape.apart
  rw [listed] at apart
  exact ⟨shape.keyed _ member, shape.holds _ member, shape.reach _ member, (List.pairwise_cons.mp apart).1⟩

theorem take_bytes (holds : Holds stream buf) {count : Nat} (short : count ≤ buf.curLen) :
    (buf.bytes.take count).length = count ∧
      buf.bytes.take count = (stream.drop buf.curOff).take count := by
  constructor
  · rw [List.length_take, holds.length_bytes]
    omega
  · rw [holds.bytes_eq, List.take_take, Nat.min_eq_left short]

/-- A chunk that is read as a whole is dropped. -/
theorem Shape.readChunk (shape : Shape stream recv) (listed : recv.data.entries = (key, buf) :: rest)
    (ready : buf.curOff = recv.off) :
    Read stream recv { recv with off := recv.off + buf.curLen, data := recv.data.erase key }
      (buf.bytes.take buf.curLen) buf.curLen := by
  obtain ⟨keyed, holds, reach, behind⟩ := shape.first listed
  obtain ⟨measure, bytes⟩ := take_bytes holds (Nat.le_refl _)
  have left : (recv.data.erase key).entries = rest := @OrdMap.entries_erase _ _ _ _ [] rest listed
  have old : ∀ entry ∈ rest, entry ∈ recv.data.entries := fun entry member => by
    rw [listed]
    exact List.mem_cons_of_mem _ member
  have apart := shape.apart
  rw [listed] at apart
  have stop : recv.off + buf.curLen = key := by rw [keyed, ← ready]; rfl
  refine ⟨⟨?_, ?_, ?_, ?_, ?_, ?_, ?_, shape.inside, shape.final, shape.running⟩, ?_, ?_, ?_, ?_⟩
  · exact fun entry member => shape.holds entry (old entry (left ▸ member))
  · exact fun entry member => shape.keyed entry (old entry (left ▸ member))
  · rw [left]
    exact (List.pairwise_cons.mp apart).2
  · intro entry member
    show recv.off + buf.curLen ≤ _
    rw [stop]
    exact behind entry (left ▸ member)
  · exact fun entry member => shape.marks entry (old entry (left ▸ member))
  · exact fun entry member => shape.reach entry (old entry (left ▸ member))
  · show recv.off + buf.curLen ≤ recv.len
    omega
  · rw [measure]
  · rw [measure, ← ready]
    exact bytes
  · omega
  · -- The offsets of the chunk now count as read.
    intro x
    unfold Has
    show x < recv.off + buf.curLen ∨ _ ↔ _
    rw [left, listed, stop]
    constructor
    · intro either
      rcases either with below | ⟨entry, member, spans⟩
      · by_cases read : x < recv.off
        · exact Or.inl read
        · refine Or.inr ⟨(key, buf), List.mem_cons_self, ?_⟩
          unfold Spans
          simp only
          omega
      · exact Or.inr ⟨entry, List.mem_cons_of_mem _ member, spans⟩
    · intro either
      rcases either with below | ⟨entry, member, spans⟩
      · exact Or.inl (by omega)
      · rcases List.mem_cons.mp member with same | member
        · rw [same] at spans
          unfold Spans at spans
          simp only at spans
          exact Or.inl (by omega)
        · exact Or.inr ⟨entry, member, spans⟩

/-- What holds of the rest of a chunk: where it starts and ends, and that it has bytes left. -/
theorem Shape.rest_bounds (shape : Shape stream recv) (listed : recv.data.entries = (key, buf) :: rest)
    (ready : buf.curOff = recv.off) {count : Nat} (short : count < buf.curLen) :
    (buf.consume count).curOff = recv.off + count ∧ (buf.consume count).maxOff = key ∧ recv.off + count < key := by
  obtain ⟨keyed, holds, -, -⟩ := shape.first listed
  have holds' := holds.consume (Nat.le_of_lt short)
  refine ⟨?_, ?_, ?_⟩
  · rw [← ready]
    simp only [RangeBuf.consume, RangeBuf.curOff]
    omega
  · rw [keyed, holds'.wf.maxOff_eq, holds.wf.maxOff_eq]
    rfl
  · rw [keyed, ← ready]
    unfold RangeBuf.maxOff
    omega

/-- The first chunk may be cut down to what was not read of it. -/
theorem Shape.cutFirst (shape : Shape stream recv) (listed : recv.data.entries = (key, buf) :: rest)
    (ready : buf.curOff = recv.off) {count : Nat} (short : count < buf.curLen) :
    Shape stream { recv with off := recv.off + count, data := recv.data.insert key (buf.consume count) } := by
  obtain ⟨-, holds, reach, behind⟩ := shape.first listed
  obtain ⟨start, stop, inside⟩ := shape.rest_bounds listed ready short
  have holds' := holds.consume (Nat.le_of_lt short)
  have later : ∀ entry ∈ recv.data.entries, entry.1 ≠ key → key ≤ entry.2.curOff := by
    intro entry among other
    rw [listed] at among
    rcases List.mem_cons.mp among with same | among
    · rw [same] at other
      exact absurd rfl other
    · exact behind entry among
  refine ⟨?_, ?_, ?_, ?_, ?_, ?_, ?_, shape.inside, shape.final, shape.running⟩
  · intro entry among
    rcases OrdMap.mem_insert_iff.mp among with new | ⟨old, _⟩
    · rw [new]
      exact holds'
    · exact shape.holds entry old
  · intro entry among
    rcases OrdMap.mem_insert_iff.mp among with new | ⟨old, _⟩
    · rw [new]
      exact stop.symm
    · exact shape.keyed entry old
  · -- The chunk still ends at its key, and everything else is behind it.
    refine (recv.data.insert key (buf.consume count)).sorted.imp_of_mem ?_
    intro left right memberLeft memberRight less
    rcases OrdMap.mem_insert_iff.mp memberRight with newRight | ⟨oldRight, otherRight⟩
    · rcases OrdMap.mem_insert_iff.mp memberLeft with newLeft | ⟨oldLeft, otherLeft⟩
      · rw [newLeft, newRight] at less
        omega
      · have := later left oldLeft otherLeft
        have := shape.keyed left oldLeft
        have : left.2.curOff ≤ left.2.maxOff := Nat.le_add_right _ _
        rw [newRight] at less
        simp only at less
        omega
    · rcases OrdMap.mem_insert_iff.mp memberLeft with newLeft | ⟨oldLeft, _⟩
      · rw [newLeft]
        exact later right oldRight otherRight
      · exact shape.disjoint oldLeft oldRight less
  · intro entry among
    show recv.off + count ≤ entry.2.curOff
    rcases OrdMap.mem_insert_iff.mp among with new | ⟨old, other⟩
    · exact Nat.le_of_eq (by rw [new, start])
    · have := later entry old other
      omega
  · intro entry among empty
    rcases OrdMap.mem_insert_iff.mp among with new | ⟨old, _⟩
    · rw [new] at empty
      rw [isEmpty_iff_maxOff, stop, start] at empty
      omega
    · exact shape.marks entry old empty
  · intro entry among
    rcases OrdMap.mem_insert_iff.mp among with new | ⟨old, _⟩
    · rw [new]
      exact reach
    · exact shape.reach entry old
  · show recv.off + count ≤ recv.len
    omega

/-- The bytes that were read of the first chunk count as read, and the others stay. -/
theorem Shape.has_cutFirst (shape : Shape stream recv) (listed : recv.data.entries = (key, buf) :: rest)
    (ready : buf.curOff = recv.off) {count : Nat} (short : count < buf.curLen) (x : Nat) :
    Has { recv with off := recv.off + count, data := recv.data.insert key (buf.consume count) } x ↔ Has recv x := by
  obtain ⟨keyed, -, -, -⟩ := shape.first listed
  obtain ⟨start, stop, inside⟩ := shape.rest_bounds listed ready short
  have member : (key, buf) ∈ recv.data.entries := by
    rw [listed]
    exact List.mem_cons_self
  unfold Has
  show x < recv.off + count ∨ _ ↔ _
  constructor
  · intro either
    rcases either with below | ⟨entry, among, spans⟩
    · by_cases read : x < recv.off
      · exact Or.inl read
      · refine Or.inr ⟨(key, buf), member, ?_⟩
        unfold Spans
        simp only
        omega
    · rcases OrdMap.mem_insert_iff.mp among with new | ⟨old, _⟩
      · rw [new] at spans
        refine Or.inr ⟨(key, buf), member, ?_⟩
        unfold Spans at spans ⊢
        simp only at spans ⊢
        omega
      · exact Or.inr ⟨entry, old, spans⟩
  · intro either
    rcases either with below | ⟨entry, among, spans⟩
    · exact Or.inl (by omega)
    · by_cases same : entry.1 = key
      · -- The entry under this key is the chunk itself.
        by_cases read : x < recv.off + count
        · exact Or.inl read
        · refine Or.inr ⟨(key, buf.consume count), OrdMap.mem_insert_iff.mpr (Or.inl rfl), ?_⟩
          have end_ := shape.keyed entry among
          unfold Spans at spans ⊢
          simp only
          omega
      · exact Or.inr ⟨entry, OrdMap.mem_insert_iff.mpr (Or.inr ⟨among, same⟩), spans⟩

/-- A chunk that is read in part stays, without the bytes that were read. -/
theorem Shape.readPart (shape : Shape stream recv) (listed : recv.data.entries = (key, buf) :: rest)
    (ready : buf.curOff = recv.off) {count : Nat} (short : count < buf.curLen) :
    Read stream recv
      { recv with off := recv.off + count, data := recv.data.insert key (buf.consume count) }
      (buf.bytes.take count) count := by
  obtain ⟨-, holds, -, -⟩ := shape.first listed
  obtain ⟨measure, bytes⟩ := take_bytes holds (Nat.le_of_lt short)
  refine ⟨shape.cutFirst listed ready short, ?_, ?_, ?_, shape.has_cutFirst listed ready short⟩
  · rw [measure]
  · rw [measure, ← ready]
    exact bytes
  · omega

/-- The loop of `emit` reads from the front of the buffer. -/
theorem Shape.emitLoop (fuel : Nat) : ∀ {recv : RecvBuf} (capacity : Nat), Shape stream recv →
    Read stream recv (emitLoop fuel capacity recv).2 (emitLoop fuel capacity recv).1 capacity := by
  induction fuel with
  | zero => exact fun capacity shape => Read.refl shape capacity
  | succ fuel ih =>
    intro recv capacity shape
    simp only [RecvBuf.emitLoop]
    by_cases stop : capacity = 0 ∨ recv.ready = false
    · rw [if_pos stop]
      exact Read.refl shape capacity
    rw [if_neg stop]
    have ready : recv.ready = true := by
      cases ready : recv.ready with
      | true => rfl
      | false => exact absurd (Or.inr ready) stop
    obtain ⟨key, buf, first, front⟩ := ready_iff.mp ready
    obtain ⟨rest, listed⟩ := List.head?_eq_some_iff.mp first
    rw [first]
    simp only
    by_cases part : min buf.curLen capacity < buf.curLen
    · -- The chunk does not fit, and fills the output.
      have full : min buf.curLen capacity = capacity := by omega
      rw [if_pos part, full]
      exact shape.readPart listed front (by omega)
    · have whole : min buf.curLen capacity = buf.curLen := by omega
      rw [if_neg part, whole]
      have one := shape.readChunk listed front
      obtain ⟨measure, _⟩ := take_bytes (shape.first listed).2.1 (Nat.le_refl buf.curLen)
      have two := ih (capacity - buf.curLen) one.shape
      have wide : Read stream recv
          { recv with off := recv.off + buf.curLen, data := recv.data.erase key }
          (buf.bytes.take buf.curLen) capacity :=
        ⟨one.shape, one.frame, one.bytes, by omega, one.has⟩
      exact wide.trans two (by omega)

theorem emitLoop_progress {fuel capacity : Nat} (holds : Holds stream buf)
    (first : recv.data.entries.head? = some (key, buf)) (front : buf.curOff = recv.off) (filled : buf.isEmpty = false)
    (room : 0 < capacity) : 0 < (emitLoop (fuel + 1) capacity recv).1.length := by
  -- The first turn takes at least one byte of the first chunk.
  have ready : recv.ready = true := ready_iff.mpr ⟨key, buf, first, front⟩
  have some_ : buf.curLen ≠ 0 := by simpa [RangeBuf.isEmpty] using filled
  have measure := holds.length_bytes
  simp only [RecvBuf.emitLoop]
  rw [if_neg (by simp [ready]; omega), first]
  simp only
  split
  · rw [List.length_take]
    omega
  · rw [List.length_append, List.length_take]
    omega

/-- What an `emit` that returns data does. -/
structure Emits (stream : Bytes) (recv after : RecvBuf) (out : Bytes) (outLen : Nat) : Prop where
  shape : Shape stream after
  /-- The bytes that are returned count as read. -/
  off : after.off = recv.off + out.length
  finOff : after.finOff = recv.finOff
  /-- The bytes are those of the stream from the offset that was read next. -/
  bytes : out = (stream.drop recv.off).take out.length
  fits : out.length ≤ outLen
  has : ∀ x, Has after x ↔ Has recv x

/-- An `emit` returns data and the final flag exactly when the buffer is ready. -/
theorem Shape.emit (shape : Shape stream recv) (outLen : Nat) :
    (recv.ready = false ∧ recv.emit outLen = (.error .done, recv)) ∨
      (recv.ready = true ∧ ∃ out after, recv.emit outLen = (.ok (out, after.isFin), after) ∧
        Emits stream recv after out outLen) := by
  -- The stream was not reset, so only a missing front can keep the call from reading.
  cases ready : recv.ready with
  | false =>
    left
    exact ⟨rfl, by rw [RecvBuf.emit, if_pos ready]⟩
  | true =>
    right
    obtain ⟨shape', frame, bytes, fits, has⟩ := Shape.emitLoop recv.data.entries.length outLen shape
    refine ⟨rfl, _, _, by rw [RecvBuf.emit, if_neg (by simp [ready]), shape.running.1], ?_⟩
    refine ⟨⟨shape'.holds, shape'.keyed, shape'.apart, shape'.above, shape'.marks, shape'.reach, shape'.read,
      shape'.inside, shape'.final, shape'.running⟩, ?_, ?_, bytes, fits, has⟩
    · show (RecvBuf.emitLoop recv.data.entries.length outLen recv).2.off = _
      rw [frame]
    · show (RecvBuf.emitLoop recv.data.entries.length outLen recv).2.finOff = _
      rw [frame]

theorem Shape.emit_progress (shape : Shape stream recv) {outLen : Nat} (room : 0 < outLen)
    (has : Has recv recv.off) : ∃ out after, recv.emit outLen = (.ok (out, after.isFin), after) ∧
      Emits stream recv after out outLen ∧ 0 < out.length := by
  -- The offset that is read next lies in the first chunk, so the buffer is ready.
  obtain ⟨key, buf, first, front, filled⟩ := shape.ready_of_has has
  obtain ⟨rest, listed⟩ := List.head?_eq_some_iff.mp first
  have ready : recv.ready = true := ready_iff.mpr ⟨key, buf, first, front⟩
  rcases shape.emit outLen with ⟨unready, _⟩ | ⟨_, out, after, ran, emits⟩
  · rw [ready] at unready
    cases unready
  · refine ⟨out, after, ran, emits, ?_⟩
    have same : out = (RecvBuf.emitLoop recv.data.entries.length outLen recv).1 := by
      rw [RecvBuf.emit, if_neg (by simp [ready]), shape.running.1] at ran
      simp only [Prod.mk.injEq, Except.ok.injEq] at ran
      exact ran.1.1.symm
    rw [same, listed]
    exact emitLoop_progress (shape.first listed).2.1 first front filled room

end Read

end RecvBuf

end Flexicast
