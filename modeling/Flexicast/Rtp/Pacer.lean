import Flexicast.Lib.Runs

/-! A pacer whose tokens grow with the time, of `fc_app/pacer.rs`. -/

namespace Flexicast

namespace Rtp

section Pacer

/-- The tokens of a sender, in bytes; times are in nanoseconds. -/
structure TokenPacer where
  tokens : Nat
  rate : Nat
  buffer : Nat
  lastActionInstant : Nat
  deriving DecidableEq

/-- The nanoseconds of a second. -/
def second : Nat := 1000000000

namespace TokenPacer

/-- A pacer without tokens; its rate is given in bits. -/
def new (rate buffer now : Nat) : TokenPacer := ⟨0, rate / 8, buffer, now⟩

/-- Adds the whole tokens of the time that has passed. -/
def updateTokens (pacer : TokenPacer) (now : Nat) : TokenPacer :=
  let elapsed := now - pacer.lastActionInstant
  let newTokens := elapsed * pacer.rate / second
  { pacer with tokens := min (pacer.tokens + newTokens) pacer.buffer, lastActionInstant := now }

/-- Takes tokens for some bytes, or refuses them. -/
def send (pacer : TokenPacer) (size now : Nat) : Bool × TokenPacer :=
  let pacer := pacer.updateTokens now
  if pacer.tokens < size then (false, pacer) else (true, { pacer with tokens := pacer.tokens - size })

end TokenPacer

end Pacer

section Polls

/-- What asks a pacer for tokens. -/
inductive Poll where
  | updateTokens (now : Nat)
  | send (size now : Nat)
  deriving DecidableEq

/-- The time of a poll. -/
def Poll.now : Poll → Nat
  | updateTokens now => now
  | send _ now => now

namespace TokenPacer

/-- The pacer after a poll. -/
def poll (pacer : TokenPacer) : Poll → TokenPacer
  | .updateTokens now => pacer.updateTokens now
  | .send size now => (pacer.send size now).2

/-- A poll takes no tokens: what it sends is refused. -/
def Refuses (pacer : TokenPacer) : Poll → Prop
  | .updateTokens _ => True
  | .send size now => (pacer.send size now).1 = false

/-- The times of the polls never go back, from the last action on. -/
def Timely (last : Nat) (polls : List Poll) : Prop := (last :: polls.map Poll.now).Pairwise (· ≤ ·)

/-- The whole tokens of each interval between two polls, added up. -/
def wholes (rate : Nat) : Nat → List Poll → Nat
  | _, [] => 0
  | last, poll :: rest => (poll.now - last) * rate / second + wholes rate poll.now rest

/-- The parts of tokens that each interval leaves, added up; a token has as many parts as a second nanoseconds. -/
def parts (rate : Nat) : Nat → List Poll → Nat
  | _, [] => 0
  | last, poll :: rest => (poll.now - last) * rate % second + parts rate poll.now rest

/-- The time of the last poll. -/
def lastNow : Nat → List Poll → Nat
  | last, [] => last
  | _, poll :: rest => lastNow poll.now rest

/-- The polls grant what one update at the end grants. -/
def GrantsAll (pacer : TokenPacer) (polls : List Poll) : Prop :=
  (Runs.run poll pacer polls).tokens = (pacer.updateTokens (lastNow pacer.lastActionInstant polls)).tokens

/-- The buffer is full in any case, or the parts that are left make up less than a token. -/
def LeavesLittle (pacer : TokenPacer) (polls : List Poll) : Prop :=
  pacer.buffer ≤ pacer.tokens + wholes pacer.rate pacer.lastActionInstant polls ∨
    parts pacer.rate pacer.lastActionInstant polls < second

variable {pacer : TokenPacer} {polls : List Poll}

/-- A poll that takes no tokens updates them. -/
theorem poll_of_refuses {asked : Poll} (refuses : pacer.Refuses asked) :
    pacer.poll asked = pacer.updateTokens asked.now := by
  cases asked with
  | updateTokens now => rfl
  | send size now =>
    simp only [Refuses, send] at refuses
    simp only [poll, send, Poll.now]
    -- Tokens that suffice would have been taken.
    split at refuses
    case isTrue short => rw [if_pos short]
    case isFalse => cases refuses

theorem le_lastNow {last : Nat} (timely : Timely last polls) : last ≤ lastNow last polls := by
  induction polls generalizing last with
  | nil => exact Nat.le_refl _
  | cons poll rest ih =>
    obtain ⟨before, timely⟩ := List.pairwise_cons.mp timely
    exact Nat.le_trans (before _ List.mem_cons_self) (ih timely)

/-- The wholes and the parts of the intervals make up the whole time. -/
theorem wholes_add_parts (rate : Nat) {last : Nat} (timely : Timely last polls) :
    wholes rate last polls * second + parts rate last polls = (lastNow last polls - last) * rate := by
  -- Induction on the polls, each of which splits its own interval.
  induction polls generalizing last with
  | nil => simp [wholes, parts, lastNow]
  | cons poll rest ih =>
    obtain ⟨before, timely⟩ := List.pairwise_cons.mp timely
    have here : last ≤ poll.now := before _ List.mem_cons_self
    have there : poll.now ≤ lastNow poll.now rest := le_lastNow timely
    have split := Nat.div_add_mod ((poll.now - last) * rate) second
    have whole : (lastNow poll.now rest - last) * rate =
        (poll.now - last) * rate + (lastNow poll.now rest - poll.now) * rate := by
      rw [← Nat.add_mul]
      congr 1
      omega
    rw [lastNow, whole, ← ih timely, wholes, parts, Nat.add_mul, Nat.mul_comm _ second]
    omega

theorem run_tokens (below : pacer.tokens ≤ pacer.buffer) (refused : Runs.Along poll Refuses pacer polls) :
    (Runs.run poll pacer polls).tokens =
      min (pacer.tokens + wholes pacer.rate pacer.lastActionInstant polls) pacer.buffer := by
  -- Induction on the polls; the first one leaves the tokens below the buffer again.
  induction polls generalizing pacer with
  | nil => simp [wholes, below]
  | cons asked rest ih =>
    obtain ⟨refuses, refused⟩ := refused
    have polled : pacer.poll asked = pacer.updateTokens asked.now := poll_of_refuses refuses
    have again := ih (by rw [polled]; exact Nat.min_le_right _ _) refused
    rw [Runs.run_cons, again, polled, wholes]
    simp only [TokenPacer.updateTokens]
    omega

/-- Polls that take no tokens grant what one update grants just when the parts that they leave make up less than a
token, or the buffer is full in any case. -/
theorem grantsAll_iff_leavesLittle (below : pacer.tokens ≤ pacer.buffer)
    (timely : Timely pacer.lastActionInstant polls) (refused : Runs.Along poll Refuses pacer polls) :
    pacer.GrantsAll polls ↔ pacer.LeavesLittle polls := by
  have whole := wholes_add_parts pacer.rate timely
  have positive : 0 < second := by decide
  -- One update adds the wholes, and the tokens that the parts make up.
  have once : (pacer.updateTokens (lastNow pacer.lastActionInstant polls)).tokens =
      min (pacer.tokens + (wholes pacer.rate pacer.lastActionInstant polls +
        parts pacer.rate pacer.lastActionInstant polls / second)) pacer.buffer := by
    have added : (lastNow pacer.lastActionInstant polls - pacer.lastActionInstant) * pacer.rate / second =
        wholes pacer.rate pacer.lastActionInstant polls +
          parts pacer.rate pacer.lastActionInstant polls / second := by
      rw [← whole, Nat.add_comm, Nat.add_mul_div_right _ _ positive, Nat.add_comm]
    simp only [TokenPacer.updateTokens, added]
  have few : parts pacer.rate pacer.lastActionInstant polls < second ↔
      parts pacer.rate pacer.lastActionInstant polls / second = 0 := by
    rw [Nat.div_eq_zero_iff]
    omega
  rw [GrantsAll, LeavesLittle, run_tokens below refused, once, few]
  generalize parts pacer.rate pacer.lastActionInstant polls / second = made
  omega

theorem grantsAll_iff_leavesLittle_tenths :
    (new 800 50 0).GrantsAll [.updateTokens 100000000, .send 30 200000000] ↔
      (new 800 50 0).LeavesLittle [.updateTokens 100000000, .send 30 200000000] :=
  grantsAll_iff_leavesLittle (by decide) (by unfold Timely; decide) ⟨trivial, rfl, trivial⟩

/-- Two polls within the time of a token grant none. -/
theorem frequent_polls_starve :
    ¬ ∀ (pacer : TokenPacer) (polls : List Poll), pacer.tokens ≤ pacer.buffer →
      Timely pacer.lastActionInstant polls → Runs.Along poll Refuses pacer polls → pacer.GrantsAll polls := by
  intro grants
  have granted := grants (new 800 50 0) [.send 1 5000000, .send 1 10000000] (by decide) (by unfold Timely; decide)
    ⟨rfl, rfl, trivial⟩
  revert granted
  unfold GrantsAll
  decide

end TokenPacer

end Polls

end Rtp

end Flexicast
