import Flexicast.Lib.Bits
import Mathlib.Data.List.Chain

/-! Prefix codes, and decoders that read a few bits at a time. -/

namespace Flexicast

namespace PrefixCode

open Bits

section Free

/-- No code word is the start of another one. -/
def PrefixFree {σ : Type} (code : σ → List Bool) : Prop := ∀ a b, code a <+: code b → a = b

/-- Neither of two bit strings is the start of the other. -/
def Apart (a b : List Bool) : Prop := ¬a <+: b ∧ ¬b <+: a

theorem Apart.symm {a b : List Bool} (apart : Apart a b) : Apart b a := ⟨apart.2, apart.1⟩

/-- Strings that are apart do not start the same string. -/
theorem Apart.not_both {a b whole : List Bool} (apart : Apart a b) (left : a <+: whole) (right : b <+: whole) : False :=
  (List.prefix_or_prefix_of_prefix left right).elim apart.1 apart.2

/-- Of a string of code words the first one is known. -/
theorem PrefixFree.head {σ : Type} {code : σ → List Bool} (free : PrefixFree code) {a b : σ} {x y : List Bool}
    (same : code a ++ x = code b ++ y) : a = b ∧ x = y := by
  -- Two starts of one string are comparable.
  have left : code a <+: code b ++ y := same ▸ List.prefix_append _ _
  have first : a = b := by
    rcases List.prefix_or_prefix_of_prefix left (List.prefix_append _ _) with shorter | longer
    · exact free a b shorter
    · exact (free b a longer).symm
  subst first
  exact ⟨rfl, List.append_cancel_left same⟩

end Free

section Intervals

/-- The strings that start with one word come before those that start with another, within some size. -/
def Before (size : Nat) (a b : Word) : Prop := (a.2 + 1) * 2 ^ (size - a.1) ≤ b.2 * 2 ^ (size - b.1)

instance decidableBefore (size : Nat) (a b : Word) : Decidable (Before size a b) :=
  inferInstanceAs (Decidable ((a.2 + 1) * 2 ^ (size - a.1) ≤ b.2 * 2 ^ (size - b.1)))

variable {size : Nat} {a b c : Word}

theorem Before.trans (first : Before size a b) (second : Before size b c) : Before size a c := by
  -- The strings of the word in between are at least none.
  unfold Before at first second ⊢
  have between : b.2 * 2 ^ (size - b.1) ≤ (b.2 + 1) * 2 ^ (size - b.1) := Nat.mul_le_mul_right _ (Nat.le_succ b.2)
  omega

/-- What starts with a word lies between its ends. -/
theorem bounds_of_starts (starts : a.starts b = true) (within : b.1 ≤ size) :
    a.2 * 2 ^ (size - a.1) ≤ b.2 * 2 ^ (size - b.1) ∧ b.2 * 2 ^ (size - b.1) < (a.2 + 1) * 2 ^ (size - a.1) := by
  obtain ⟨shorter, shifted⟩ := Word.starts_iff.mp starts
  rw [Nat.shiftRight_eq_div_pow] at shifted
  have wide : 2 ^ (size - a.1) = 2 ^ (b.1 - a.1) * 2 ^ (size - b.1) := by
    rw [← Nat.pow_add]
    congr 1
    omega
  have positive := Nat.two_pow_pos (b.1 - a.1)
  -- The number of the word is the quotient of that of the longer one.
  have low : a.2 * 2 ^ (b.1 - a.1) ≤ b.2 := by
    rw [← shifted]
    exact Nat.div_mul_le_self _ _
  have high : b.2 < (a.2 + 1) * 2 ^ (b.1 - a.1) := by
    rw [← shifted]
    exact (Nat.div_lt_iff_lt_mul positive).mp (Nat.lt_succ_self _)
  rw [wide, ← Nat.mul_assoc, ← Nat.mul_assoc]
  exact ⟨Nat.mul_le_mul_right _ low, Nat.mul_lt_mul_of_pos_right high (Nat.two_pow_pos _)⟩

/-- Words one of which comes before the other are apart. -/
theorem Before.apart (before : Before size a b) (fitsA : a.Fits) (fitsB : b.Fits) (withinA : a.1 ≤ size)
    (withinB : b.1 ≤ size) : Apart a.bits b.bits := by
  unfold Before at before
  constructor
  · intro starts
    have := (bounds_of_starts (Word.starts_of_prefix fitsA fitsB starts) withinB).2
    omega
  · intro starts
    have := (bounds_of_starts (Word.starts_of_prefix fitsB fitsA starts) withinA).1
    have : a.2 * 2 ^ (size - a.1) < (a.2 + 1) * 2 ^ (size - a.1) :=
      Nat.mul_lt_mul_of_pos_right (Nat.lt_succ_self _) (Nat.two_pow_pos _)
    omega

/-- Words that can be put in a row, each before the next, are apart. -/
theorem pairwise_apart {words sorted : List Word} (same : sorted.Perm words) (row : sorted.IsChain (Before size))
    (fits : ∀ word ∈ words, word.Fits ∧ word.1 ≤ size) : words.Pairwise fun a b => Apart a.bits b.bits := by
  have : Trans (Before size) (Before size) (Before size) := ⟨Before.trans⟩
  refine (same.pairwise_iff fun apart => apart.symm).mp ?_
  -- What holds of neighbours holds of any two, as the relation is transitive.
  refine (List.isChain_iff_pairwise.mp row).imp_of_mem fun {a b} inA inB before => ?_
  obtain ⟨fitsA, withinA⟩ := fits a (same.mem_iff.mp inA)
  obtain ⟨fitsB, withinB⟩ := fits b (same.mem_iff.mp inB)
  exact before.apart fitsA fitsB withinA withinB

end Intervals

section Decoding

variable {ε σ S I : Type}

/-- Runs a decoder over its input. -/
def run (step : S → I → Except ε (Option σ × S)) : S → List I → Except ε (List σ × S)
  | state, [] => .ok ([], state)
  | state, input :: rest => do
    let (out, state) ← step state input
    let (later, state) ← run step state rest
    return (out.toList ++ later, state)

/-- A run takes a step and goes on. -/
theorem run_cons {step : S → I → Except ε (Option σ × S)} {state last : S} {input : I} {rest : List I}
    {symbols : List σ} :
    run step state (input :: rest) = .ok (symbols, last) ↔ ∃ out after later,
      step state input = .ok (out, after) ∧ run step after rest = .ok (later, last) ∧
        symbols = out.toList ++ later := by
  have unfolded : run step state (input :: rest) = (step state input >>= fun result =>
      run step result.2 rest >>= fun later => pure (result.1.toList ++ later.1, later.2)) := rfl
  rw [unfolded]
  constructor
  · intro ran
    cases first : step state input with
    | error error => rw [first] at ran; cases ran
    | ok result =>
      rw [first] at ran
      cases then_ : run step result.2 rest with
      | error error =>
        have failed : (run step result.2 rest >>= fun later =>
          (pure (result.1.toList ++ later.1, later.2) : Except ε (List σ × S))) = .ok (symbols, last) := ran
        rw [then_] at failed
        cases failed
      | ok later =>
        have done : (run step result.2 rest >>= fun later =>
          (pure (result.1.toList ++ later.1, later.2) : Except ε (List σ × S))) = .ok (symbols, last) := ran
        rw [then_] at done
        obtain ⟨rfl, rfl⟩ := Prod.mk.inj (Except.ok.inj done)
        exact ⟨_, _, _, rfl, then_, rfl⟩
  · rintro ⟨out, after, later, first, then_, rfl⟩
    rw [first]
    show (run step after rest >>= fun later => pure (out.toList ++ later.1, later.2)) = _
    rw [then_]
    rfl

/-- A decoder keeps to a code: its state stands for the bits read since the last symbol. -/
structure Follows (code : σ → List Bool) (eos : List Bool) (pending : S → List Bool) (group : I → List Bool)
    (valid : S → Prop) (fits : I → Prop) (step : S → I → Except ε (Option σ × S)) : Prop where
  /-- A step drops the word of the symbol that it gives, and keeps all other bits. -/
  goes : ∀ {state input out after}, valid state → fits input → step state input = .ok (out, after) →
    valid after ∧ pending state ++ group input = out.toList.flatMap code ++ pending after
  fails : ∀ {state input error}, valid state → fits input → step state input = .error error →
    eos <+: pending state ++ group input
  partly : ∀ {state} symbol, valid state → ¬code symbol <+: pending state

/-- Such a decoder finds the symbols of a string of words with some padding. -/
theorem Follows.run_eq {code : σ → List Bool} {eos padding : List Bool} {pending : S → List Bool}
    {group : I → List Bool} {valid : S → Prop} {fits : I → Prop} {step : S → I → Except ε (Option σ × S)}
    (follows : Follows code eos pending group valid fits step) (free : PrefixFree code)
    (apart : ∀ symbol, Apart (code symbol) eos) (pads : padding <+: eos) (short : padding.length < eos.length)
    (inputs : List I) (each : ∀ input ∈ inputs, fits input) :
    ∀ (state : S) (symbols : List σ), valid state →
      pending state ++ inputs.flatMap group = symbols.flatMap code ++ padding →
      ∃ after, run step state inputs = .ok (symbols, after) ∧ valid after ∧ pending after = padding := by
  -- Induction on the input; the bits kept and those to come stay a string of words with the padding.
  induction inputs with
  | nil =>
    intro state symbols isValid whole
    rw [List.flatMap_nil, List.append_nil] at whole
    cases symbols with
    | nil => exact ⟨state, rfl, isValid, whole⟩
    | cons symbol rest =>
      rw [List.flatMap_cons, List.append_assoc] at whole
      exact absurd (whole ▸ List.prefix_append _ _) (follows.partly symbol isValid)
  | cons input inputs ih =>
    intro state symbols isValid whole
    have here := each input List.mem_cons_self
    rw [List.flatMap_cons, ← List.append_assoc] at whole
    cases ran : step state input with
    | error error =>
      -- The end-of-string word neither starts with a word nor fits the padding.
      have ends := (follows.fails isValid here ran).trans (List.prefix_append _ (inputs.flatMap group))
      rw [whole] at ends
      cases symbols with
      | nil =>
        have := ends.length_le
        rw [List.flatMap_nil, List.nil_append] at this
        omega
      | cons symbol rest =>
        rw [List.flatMap_cons, List.append_assoc] at ends
        exact ((apart symbol).not_both (List.prefix_append _ _) ends).elim
    | ok result =>
      obtain ⟨out, after⟩ := result
      obtain ⟨nowValid, dropped⟩ := follows.goes isValid here ran
      rw [dropped, List.append_assoc] at whole
      have later := ih fun other member => each other (List.mem_cons_of_mem _ member)
      cases out with
      | none =>
        obtain ⟨last, rest, holds⟩ := later after symbols nowValid whole
        exact ⟨last, run_cons.mpr ⟨_, _, _, ran, rest, rfl⟩, holds⟩
      | some symbol =>
        rw [Option.toList_some, List.flatMap_cons, List.flatMap_nil, List.append_nil] at whole
        cases symbols with
        | nil =>
          -- A word in the padding would start the end-of-string word.
          have inside : code symbol <+: padding := by
            rw [List.flatMap_nil, List.nil_append] at whole
            exact whole ▸ List.prefix_append _ _
          exact absurd (inside.trans pads) (apart symbol).1
        | cons first symbols =>
          rw [List.flatMap_cons, List.append_assoc] at whole
          obtain ⟨rfl, tail⟩ := free.head whole
          obtain ⟨last, rest, holds⟩ := later after symbols nowValid tail
          exact ⟨last, run_cons.mpr ⟨_, _, _, ran, rest, rfl⟩, holds⟩

end Decoding

end PrefixCode

end Flexicast
