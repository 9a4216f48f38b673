/-
# `SourceTokens.Proofs.Regex.Matches` — what an expression matches

`r.Matches p q` says that `r` matches what lies between the places `p` and `q` of a text,
clause by clause and with no preference among matches:

    (seq r s).Matches p q  ↔  ∃ m, r.Matches p m ∧ s.Matches m q
    (alt r s).Matches p q  ↔  r.Matches p q ∨ s.Matches p q

and a repetition matches in any number of rounds that its bounds allow.  The ways through
lead to all the places where a match may end and to no other (`mem_ways_iff`), so an
expression has a preferred match wherever it has any (`isSome_matchAt_iff`).

Rounds that read nothing are what the two accounts differ in: one way through a repetition
takes at most one of them.  It loses no place by that, because a place that is reached with
such rounds is reached without them.
-/
import Mathlib.Logic.Relation
import SourceTokens.Proofs.Regex.Ways

namespace SourceTokens.Regex

/-! ## Matching -/

/-- `n` rounds of `R`, one after the other. -/
def Rounds (R : Point → Point → Prop) : Nat → Point → Point → Prop
  | 0, p, q => q = p
  | n + 1, p, q => ∃ m, R p m ∧ Rounds R n m q

/-- A repetition of at least `lo` rounds and at most `hi` allows `n` of them. -/
def Allows (lo : Nat) (hi : Option Nat) (n : Nat) : Prop := lo ≤ n ∧ ∀ h ∈ hi, n ≤ h

/-- The expression matches what lies between the two places. -/
def Matches : Regex → Point → Point → Prop
  | empty, p, q => q = p
  | one a, p, q => ∃ c rest, p.ahead = c :: rest ∧ a.contains c = true ∧ q = p.read c rest
  | assert a, p, q => a.holds p = true ∧ q = p
  | seq r s, p, q => ∃ m, Matches r p m ∧ Matches s m q
  | alt r s, p, q => Matches r p q ∨ Matches s p q
  | times r lo hi _, p, q => ∃ n, Allows lo hi n ∧ Rounds (Matches r) n p q

/-- No repetition demands more rounds than it allows. -/
def WellFormed : Regex → Prop
  | empty => True
  | one _ => True
  | assert _ => True
  | seq r s => WellFormed r ∧ WellFormed s
  | alt r s => WellFormed r ∧ WellFormed s
  | times r lo hi _ => WellFormed r ∧ ∀ h ∈ hi, lo ≤ h

section Rounds

variable {R : Point → Point → Prop} {p q m : Point}

theorem rounds_one : Rounds R 1 p q ↔ R p q := by
  constructor
  · rintro ⟨m, hm, rfl⟩
    exact hm
  · intro h
    exact ⟨q, h, rfl⟩

theorem rounds_add {k n : Nat} :
    Rounds R (k + n) p q ↔ ∃ m, Rounds R k p m ∧ Rounds R n m q := by
  induction k generalizing p with
  | zero =>
    rw [Nat.zero_add]
    constructor
    · intro h
      exact ⟨p, rfl, h⟩
    · rintro ⟨m, rfl, h⟩
      exact h
  | succ k ih =>
    rw [Nat.add_right_comm]
    constructor
    · rintro ⟨x, hx, h⟩
      obtain ⟨m, hm, h⟩ := ih.mp h
      exact ⟨m, ⟨x, hx, hm⟩, h⟩
    · rintro ⟨m, ⟨x, hx, hm⟩, h⟩
      exact ⟨x, hx, ih.mpr ⟨m, hm, h⟩⟩

end Rounds

/-! ## Rounds that read -/

section Reading

variable {step : Point → List Point} {lazy : Bool} {p q : Point}

/-- A round that reads something. -/
def Onward (step : Point → List Point) (p q : Point) : Prop := q ∈ step p ∧ p.index < q.index

/-- Every round leads on or stays. -/
theorem onward_or_eq (hstep : ∀ p, ∀ q ∈ step p, p.LeadsTo q) (h : q ∈ step p) :
    Onward step p q ∨ q = p := by
  rcases Nat.eq_or_lt_of_le (hstep p q h).index_le with hi | hlt
  · exact .inr ((hstep p q h).eq_of_index_eq (.refl p) hi.symm)
  · exact .inl ⟨h, hlt⟩

theorem leadsTo_of_rounds (hstep : ∀ p, ∀ q ∈ step p, p.LeadsTo q) {n : Nat}
    (h : Rounds (fun p q => q ∈ step p) n p q) : p.LeadsTo q := by
  induction n generalizing p with
  | zero => exact h ▸ .refl p
  | succ n ih =>
    obtain ⟨m, hm, h⟩ := h
    exact (hstep p m hm).trans (ih h)

/-- What rounds lead to is led to by those of them that read. -/
theorem onward_of_rounds (hstep : ∀ p, ∀ q ∈ step p, p.LeadsTo q) {n : Nat}
    (h : Rounds (fun p q => q ∈ step p) n p q) :
    Relation.ReflTransGen (Onward step) p q := by
  induction n generalizing p with
  | zero => exact h ▸ .refl
  | succ n ih =>
    obtain ⟨m, hm, h⟩ := h
    rcases onward_or_eq hstep hm with hon | rfl
    · exact .head hon (ih h)
    · exact ih h

theorem exists_rounds_of_onward (h : Relation.ReflTransGen (Onward step) p q) :
    ∃ n, Rounds (fun p q => q ∈ step p) n p q := by
  induction h using Relation.ReflTransGen.head_induction_on with
  | refl => exact ⟨0, rfl⟩
  | head hm _ ih =>
    obtain ⟨n, hn⟩ := ih
    exact ⟨n + 1, _, hm.1, hn⟩

theorem Ways.mem_onward_iff (hstep : ∀ p, ∀ q ∈ step p, p.LeadsTo q) {n : Nat}
    (hn : p.ahead.length ≤ n) :
    q ∈ Ways.onward step lazy n p ↔ Relation.ReflTransGen (Onward step) p q := by
  induction n generalizing p with
  | zero =>
    show q ∈ [p] ↔ _
    rw [List.mem_singleton]
    constructor
    · rintro rfl
      exact .refl
    · intro h
      rcases h.cases_head with rfl | ⟨m, ⟨hm, hlt⟩, _⟩
      · rfl
      · have := (hstep p m hm).index_add_length
        omega
  | succ n ih =>
    have hshorter : ∀ m, Onward step p m → m.ahead.length ≤ n := by
      rintro m ⟨hm, hlt⟩
      have := (hstep p m hm).index_add_length
      omega
    unfold Ways.onward
    rw [Ways.mem_orStay, List.mem_flatMap, Relation.ReflTransGen.cases_head_iff, eq_comm]
    refine or_congr Iff.rfl (exists_congr fun m => ?_)
    rw [List.mem_filter, decide_eq_true_eq]
    exact and_congr_right fun hm => ih (hshorter m hm)

/-! ## The rounds of a repetition -/

theorem Ways.mem_rounds_iff (hstep : ∀ p, ∀ q ∈ step p, p.LeadsTo q) :
    q ∈ Ways.rounds step lazy p ↔ ∃ n, Rounds (fun p q => q ∈ step p) (n + 1) p q := by
  unfold Ways.rounds
  rw [List.mem_flatMap]
  constructor
  · rintro ⟨m, hm, hq⟩
    split at hq
    case isTrue =>
      obtain rfl := List.mem_singleton.mp hq
      exact ⟨0, rounds_one.mpr hm⟩
    case isFalse =>
      obtain ⟨n, hn⟩ := exists_rounds_of_onward ((mem_onward_iff hstep (Nat.le_refl _)).mp hq)
      exact ⟨n, m, hm, hn⟩
  · rintro ⟨n, hn⟩
    -- the first round that reads, or any round if none does
    rcases (onward_of_rounds hstep hn).cases_head with rfl | ⟨m, ⟨hm, hlt⟩, hq⟩
    · obtain ⟨m, hm, hn⟩ := hn
      have hback : m = p := (hstep p m hm).antisymm (leadsTo_of_rounds hstep hn)
      refine ⟨m, hm, ?_⟩
      rw [if_pos (congrArg Point.index hback), hback]
      exact List.mem_singleton_self p
    · refine ⟨m, hm, ?_⟩
      rw [if_neg (by omega)]
      exact (mem_onward_iff hstep (Nat.le_refl _)).mpr hq

theorem Ways.mem_exactly_iff {n : Nat} :
    q ∈ Ways.exactly step n p ↔ Rounds (fun p q => q ∈ step p) n p q := by
  induction n generalizing p with
  | zero => exact List.mem_singleton
  | succ n ih =>
    show q ∈ (step p).flatMap (Ways.exactly step n) ↔ _
    rw [List.mem_flatMap]
    exact exists_congr fun m => and_congr_right fun _ => ih

theorem Ways.mem_atMost_iff {n : Nat} :
    q ∈ Ways.atMost step lazy n p ↔ ∃ k ≤ n, Rounds (fun p q => q ∈ step p) k p q := by
  induction n generalizing p with
  | zero =>
    show q ∈ [p] ↔ _
    rw [List.mem_singleton]
    constructor
    · intro h
      exact ⟨0, Nat.le_refl 0, h⟩
    · rintro ⟨k, hk, h⟩
      obtain rfl := Nat.le_zero.mp hk
      exact h
  | succ n ih =>
    unfold Ways.atMost
    rw [Ways.mem_orStay, List.mem_flatMap]
    constructor
    · rintro (h | ⟨m, hm, hq⟩)
      · exact ⟨0, Nat.zero_le _, h⟩
      · obtain ⟨k, hk, hrounds⟩ := ih.mp hq
        exact ⟨k + 1, Nat.succ_le_succ hk, m, hm, hrounds⟩
    · rintro ⟨k, hk, h⟩
      cases k with
      | zero => exact .inl h
      | succ k =>
        obtain ⟨m, hm, h⟩ := h
        exact .inr ⟨m, hm, ih.mpr ⟨k, Nat.le_of_succ_le_succ hk, h⟩⟩

theorem Ways.mem_repeated_iff (hstep : ∀ p, ∀ q ∈ step p, p.LeadsTo q) {lo : Nat}
    {hi : Option Nat} (hle : ∀ h ∈ hi, lo ≤ h) :
    q ∈ Ways.repeated step lazy lo hi p
      ↔ ∃ n, Allows lo hi n ∧ Rounds (fun p q => q ∈ step p) n p q := by
  -- the rounds that are demanded, and then those that are not
  have hsplit : ∀ further : Point → List Point, ∀ P : Nat → Prop,
      (∀ m, q ∈ further m ↔ ∃ k, P k ∧ Rounds (fun p q => q ∈ step p) k m q) →
      ∀ lo, (q ∈ (Ways.exactly step lo p).flatMap further
        ↔ ∃ k, P k ∧ Rounds (fun p q => q ∈ step p) (lo + k) p q) := by
    intro further P hfurther lo
    rw [List.mem_flatMap]
    constructor
    · rintro ⟨m, hm, hq⟩
      obtain ⟨k, hk, hq⟩ := (hfurther m).mp hq
      exact ⟨k, hk, rounds_add.mpr ⟨m, mem_exactly_iff.mp hm, hq⟩⟩
    · rintro ⟨k, hk, h⟩
      obtain ⟨m, hm, hq⟩ := rounds_add.mp h
      exact ⟨m, mem_exactly_iff.mpr hm, (hfurther m).mpr ⟨k, hk, hq⟩⟩
  unfold Ways.repeated
  split
  case h_1 =>
    rw [mem_orStay, mem_rounds_iff hstep]
    constructor
    · rintro (h | ⟨n, hn⟩)
      · exact ⟨0, ⟨Nat.le_refl 0, nofun⟩, h⟩
      · exact ⟨n + 1, ⟨Nat.zero_le _, nofun⟩, hn⟩
    · rintro ⟨n, _, hn⟩
      cases n with
      | zero => exact .inl hn
      | succ n => exact .inr ⟨n, hn⟩
  case h_2 lo =>
    rw [hsplit _ (1 ≤ ·) ?_]
    · constructor
      · rintro ⟨k, hk, h⟩
        exact ⟨lo + k, ⟨Nat.add_le_add_left hk lo, nofun⟩, h⟩
      · rintro ⟨n, ⟨hn, _⟩, h⟩
        obtain ⟨k, rfl⟩ := Nat.exists_eq_add_of_le (Nat.le_of_succ_le hn)
        exact ⟨k, by omega, h⟩
    · intro m
      rw [mem_rounds_iff hstep]
      constructor
      · rintro ⟨n, hn⟩
        exact ⟨n + 1, Nat.le_add_left 1 n, hn⟩
      · rintro ⟨k, hk, h⟩
        obtain ⟨n, rfl⟩ := Nat.exists_eq_add_of_le' hk
        exact ⟨n, h⟩
  case h_3 hi =>
    have hle := hle hi rfl
    rw [hsplit _ (· ≤ hi - lo) fun _ => mem_atMost_iff]
    constructor
    · rintro ⟨k, hk, h⟩
      exact ⟨lo + k, ⟨Nat.le_add_right lo k, by rintro _ ⟨⟩; omega⟩, h⟩
    · rintro ⟨n, ⟨hn, hmost⟩, h⟩
      obtain ⟨k, rfl⟩ := Nat.exists_eq_add_of_le hn
      have := hmost hi rfl
      exact ⟨k, by omega, h⟩

end Reading

/-! ## Ways and matches -/

theorem leadsTo_of_mem_ways {r : Regex} {p q : Point} (h : q ∈ r.ways p) : p.LeadsTo q :=
  leadsTo_of_mem_ends (mem_ends_iff_mem_ways.mpr h)

theorem mem_ways_iff {r : Regex} (hr : r.WellFormed) {p q : Point} :
    q ∈ r.ways p ↔ r.Matches p q := by
  induction r generalizing p q with
  | empty => exact List.mem_singleton
  | one a =>
    obtain ⟨past, ahead, i, hi⟩ := p
    show q ∈ a.ends _ ↔ ∃ c rest, ahead = c :: rest ∧ _
    cases ahead with
    | nil => exact ⟨nofun, nofun⟩
    | cons c rest =>
      show q ∈ (if a.contains c then [_] else []) ↔ _
      rw [List.mem_ite_nil_right, List.mem_singleton]
      constructor
      · rintro ⟨hc, hq⟩
        exact ⟨c, rest, rfl, hc, hq⟩
      · rintro ⟨_, _, ⟨⟩, hc, hq⟩
        exact ⟨hc, hq⟩
  | assert a =>
    show q ∈ (if a.holds p then [p] else []) ↔ _
    rw [List.mem_ite_nil_right, List.mem_singleton]
    exact Iff.rfl
  | seq r s ihr ihs =>
    show q ∈ (r.ways p).flatMap s.ways ↔ _
    rw [List.mem_flatMap]
    exact exists_congr fun m => and_congr (ihr hr.1) (ihs hr.2)
  | alt r s ihr ihs =>
    show q ∈ r.ways p ++ s.ways p ↔ _
    rw [List.mem_append]
    exact or_congr (ihr hr.1) (ihs hr.2)
  | times r lo hi lazy ih =>
    have hways : (fun p q => q ∈ r.ways p) = r.Matches :=
      funext fun p => funext fun q => propext (ih hr.1)
    show q ∈ Ways.repeated r.ways lazy lo hi p ↔ _
    rw [Ways.mem_repeated_iff (fun p q => leadsTo_of_mem_ways) hr.2, hways]
    exact Iff.rfl

/-- Where there is a match, there is a preferred one. -/
theorem isSome_matchAt_iff {r : Regex} (hr : r.WellFormed) {p : Point} :
    (r.matchAt p).isSome ↔ ∃ q, r.Matches p q := by
  rw [matchAt_eq_head?_ways, List.isSome_head?]
  constructor
  · intro h
    obtain ⟨q, hq⟩ := List.exists_mem_of_ne_nil _ h
    exact ⟨q, (mem_ways_iff hr).mp hq⟩
  · rintro ⟨q, hq⟩
    exact List.ne_nil_of_mem ((mem_ways_iff hr).mpr hq)

theorem leadsTo_of_matches {r : Regex} (hr : r.WellFormed) {p q : Point}
    (h : r.Matches p q) : p.LeadsTo q :=
  leadsTo_of_mem_ways ((mem_ways_iff hr).mpr h)

end SourceTokens.Regex
