/-
# `SourceTokens.Proofs.Regex.Ways` — every way through, in order of preference

`r.ways p` is what trying every way through comes to: the end of each way in which `r` can
match from `p`, the preferred way first.  Nothing is remembered, and a place comes up as
often as ways lead to it.

`r.ends p` remembers the places it has found and never follows one again.  The two agree:
whoever walks them for the first place with which something can be done finds the same,

    (r.ends p).findSome? k = (r.ways p).findSome? k

so the preferred match is that of the first way (`matchAt_eq_head?_ways`), and a place is
listed by the one if and only if it is listed by the other (`mem_ends_iff_mem_ways`).

The one step that is not a matter of leaving out later arrivals is `explore`: when it meets
a place again it drops the place with all that lies beyond, and that is no loss because
everything beyond has been found by then.  The invariant is `Found.ClosedBut`.
-/
import SourceTokens.Proofs.Regex.Distinct
import SourceTokens.Proofs.Regex.Shift

namespace SourceTokens.Regex

/-! ## Places of one text -/

/-- Reading leads from the one place to the other. -/
def Point.LeadsTo (p q : Point) : Prop := ∃ w, p.Reaches w q

namespace Point.LeadsTo

variable {p q q' m : Point}

theorem refl (p : Point) : p.LeadsTo p := ⟨[], .refl p⟩

theorem trans (h : p.LeadsTo m) (h' : m.LeadsTo q) : p.LeadsTo q := by
  obtain ⟨u, hu⟩ := h
  obtain ⟨v, hv⟩ := h'
  exact ⟨u ++ v, hu.trans hv⟩

/-- Every place of a text has as much before and after it as any other. -/
theorem index_add_length (h : p.LeadsTo q) :
    q.index + q.ahead.length = p.index + p.ahead.length := by
  obtain ⟨w, hahead, hpast⟩ := h
  rw [q.index_eq, p.index_eq, hahead, hpast]
  simp only [List.length_append, List.length_reverse]
  omega

theorem index_le (h : p.LeadsTo q) : p.index ≤ q.index := by
  obtain ⟨w, _, hpast⟩ := h
  rw [q.index_eq, p.index_eq, hpast, List.length_append]
  exact Nat.le_add_left _ _

/-- Two places of a text are told apart by their index. -/
theorem eq_of_index_eq (h : p.LeadsTo q) (h' : p.LeadsTo q') (hi : q.index = q'.index) :
    q = q' := by
  obtain ⟨u, hahead, hpast⟩ := h
  obtain ⟨v, hahead', hpast'⟩ := h'
  have hlength : u.length = v.length := by
    rw [q.index_eq, q'.index_eq, hpast, hpast'] at hi
    simpa using hi
  obtain ⟨rfl, ha⟩ := List.append_inj (hahead.symm.trans hahead') hlength
  have hp : q.past = q'.past := hpast.trans hpast'.symm
  cases q
  cases q'
  simp_all

theorem antisymm (h : p.LeadsTo q) (h' : q.LeadsTo p) : q = p :=
  h.eq_of_index_eq (.refl p) (Nat.le_antisymm h'.index_le h.index_le)

end Point.LeadsTo

theorem leadsTo_of_mem_ends {r : Regex} {p q : Point} (h : q ∈ r.ends p) : p.LeadsTo q :=
  exists_reaches_of_mem_ends h

/-! ## Lists that are walked for the first place that will do -/

theorem findSome?_flatMap {α β γ : Type} (l : List β) (f : β → List γ) (k : γ → Option α) :
    (l.flatMap f).findSome? k = l.findSome? fun x => (f x).findSome? k := by
  induction l with
  | nil => rfl
  | cons x l ih =>
    rw [List.flatMap_cons, List.findSome?_append, ih, List.findSome?_cons]
    cases (f x).findSome? k <;> rfl

/-- Whoever walks the two lists for the first place with which something can be done finds
the same. -/
def Agree (l m : List Point) : Prop :=
  ∀ (α : Type) (k : Point → Option α), l.findSome? k = m.findSome? k

namespace Agree

variable {l m n l' m' : List Point}

theorem refl (l : List Point) : Agree l l := fun _ _ => rfl

theorem symm (h : Agree l m) : Agree m l := fun α k => (h α k).symm

theorem trans (h : Agree l m) (h' : Agree m n) : Agree l n :=
  fun α k => (h α k).trans (h' α k)

theorem append (h : Agree l m) (h' : Agree l' m') : Agree (l ++ l') (m ++ m') := by
  intro α k
  rw [List.findSome?_append, List.findSome?_append, h α k, h' α k]

theorem flatMap {f g : Point → List Point} (h : Agree l m) (hfg : ∀ p, Agree (f p) (g p)) :
    Agree (l.flatMap f) (m.flatMap g) := by
  intro α k
  rw [findSome?_flatMap, findSome?_flatMap, h]
  exact congrArg (List.findSome? · m) (funext fun p => hfg p α k)

theorem filter (h : Agree l m) (c : Point → Bool) : Agree (l.filter c) (m.filter c) := by
  have hkeep : ∀ l : List Point, l.filter c = l.flatMap fun p => if c p then [p] else [] := by
    intro l
    induction l with
    | nil => rfl
    | cons p l ih => cases hp : c p <;> simp [hp, ih]
  rw [hkeep, hkeep]
  exact h.flatMap fun _ => .refl _

theorem head?_eq (h : Agree l m) : l.head? = m.head? := by
  have hfirst : ∀ l : List Point, l.head? = l.findSome? some := by
    intro l
    cases l <;> rfl
  rw [hfirst, hfirst, h]

theorem mem_iff (h : Agree l m) {p : Point} : p ∈ l ↔ p ∈ m := by
  have hfind : ∀ l : List Point,
      p ∈ l ↔ (l.findSome? fun q => if q = p then some q else none).isSome := by
    intro l
    rw [List.findSome?_isSome_iff]
    constructor
    · intro hp
      exact ⟨p, hp, by rw [if_pos rfl]; rfl⟩
    · rintro ⟨q, hq, hsome⟩
      split at hsome
      case isTrue heq => exact heq ▸ hq
      case isFalse => cases hsome
  rw [hfind l, hfind m, h]

/-- What has come up before adds nothing. -/
theorem append_of_subset (h : ∀ p ∈ m, p ∈ l) : Agree (l ++ m) l := by
  intro α k
  rw [List.findSome?_append]
  cases hl : l.findSome? k with
  | some a => rfl
  | none =>
    rw [Option.none_or, List.findSome?_eq_none_iff]
    intro p hp
    exact List.findSome?_eq_none_iff.mp hl p (h p hp)

end Agree

theorem alike_of_leadsTo {α : Type} {p : Point} {ps : List Point}
    (h : ∀ q ∈ ps, p.LeadsTo q) (k : Point → Option α) : Alike k ps := by
  intro q hq q' hq' hi
  exact congrArg k ((h q hq).eq_of_index_eq (h q' hq') hi)

theorem agree_distinct {p : Point} {ps : List Point} (h : ∀ q ∈ ps, p.LeadsTo q) :
    Agree (distinct ps) ps :=
  fun _ k => findSome?_distinct (alike_of_leadsTo h k)

/-! ## Every way through -/

namespace Ways

variable (step : Point → List Point) (lazy : Bool)

/-- A repetition that may end at `p`, with the ways that go on from there. -/
def orStay (p : Point) (further : List Point) : List Point :=
  if lazy then p :: further else further ++ [p]

variable {lazy} in
theorem mem_orStay {p q : Point} {further : List Point} :
    q ∈ orStay lazy p further ↔ q = p ∨ q ∈ further := by
  cases lazy with
  | true => exact List.mem_cons
  | false =>
    show q ∈ further ++ [p] ↔ _
    rw [List.mem_append, List.mem_singleton, or_comm]

/-- Any number of rounds from `p`, each of which reads something.  The number bounds the
rounds; one for each character ahead is enough. -/
def onward : Nat → Point → List Point
  | 0, p => [p]
  | n + 1, p =>
    orStay lazy p (((step p).filter fun q => p.index < q.index).flatMap (onward n))

/-- One round or more.  A first round that reads nothing ends there. -/
def rounds (p : Point) : List Point :=
  (step p).flatMap fun q =>
    if q.index = p.index then [q] else onward step lazy q.ahead.length q

/-- Exactly `n` rounds. -/
def exactly : Nat → Point → List Point
  | 0, p => [p]
  | n + 1, p => (step p).flatMap (exactly n)

/-- At most `n` rounds. -/
def atMost : Nat → Point → List Point
  | 0, p => [p]
  | n + 1, p => orStay lazy p ((step p).flatMap (atMost n))

/-- At least `lo` rounds and at most `hi`. -/
def repeated (lo : Nat) (hi : Option Nat) (p : Point) : List Point :=
  match lo, hi with
  | 0, none => orStay lazy p (rounds step lazy p)
  | lo + 1, none => (exactly step lo p).flatMap (rounds step lazy)
  | lo, some hi => (exactly step lo p).flatMap (atMost step lazy (hi - lo))

theorem repeated_some (lo hi : Nat) (p : Point) :
    repeated step lazy lo (some hi) p
      = (exactly step lo p).flatMap (atMost step lazy (hi - lo)) := by
  cases lo <;> rfl

end Ways

/-- The ends of all ways to match from `p`, the preferred way first. -/
def ways : Regex → Point → List Point
  | empty, p => [p]
  | one a, p => a.ends p
  | assert a, p => if a.holds p then [p] else []
  | seq r s, p => (ways r p).flatMap (ways s)
  | alt r s, p => ways r p ++ ways s p
  | times r lo hi lazy, p => Ways.repeated (ways r) lazy lo hi p

/-! ## Rounds that are followed once -/

section Memory

variable {step : Point → List Point} {lazy : Bool} {start p : Point} {f : Found}

theorem Found.mem_toList {q : Point} : q ∈ f.toList ↔ q ∈ f.latestFirst := List.mem_reverse

theorem Found.mem_insert_of_mem {q : Point} (h : q ∈ f.latestFirst) :
    q ∈ (f.insert p).latestFirst := by
  unfold insert
  split
  · exact h
  · exact .tail p h

/-- The places found, all of them of one text: whatever a further round leads to from one of
them has been found, unless the place is still `open_`. -/
structure Found.ClosedBut (step : Point → List Point) (start : Point) (open_ : Point → Prop)
    (f : Found) : Prop where
  faithful : f.Faithful
  reached : f.All start.LeadsTo
  closed : ∀ q ∈ f.latestFirst, ¬ open_ q →
    ∀ m ∈ step q, q.index < m.index → m ∈ f.latestFirst

namespace Found.ClosedBut

variable {open_ : Point → Prop}

theorem empty : Found.empty.ClosedBut step start open_ where
  faithful := faithful_empty
  reached := all_empty _
  closed := by
    intro q hq
    cases hq

theorem mem_of_has (h : f.ClosedBut step start open_) (hp : start.LeadsTo p)
    (hhas : f.has p = true) : p ∈ f.latestFirst := by
  obtain ⟨q, hq, hi⟩ := h.faithful.has_iff.mp hhas
  exact (h.reached q hq).eq_of_index_eq hp hi ▸ hq

theorem agree_insert (h : f.ClosedBut step start open_) (hp : start.LeadsTo p) :
    Agree (f.insert p).toList (f.toList ++ [p]) := by
  cases hhas : f.has p with
  | true =>
    have hsame : f.insert p = f := by rw [insert, if_pos hhas]
    rw [hsame]
    refine (Agree.append_of_subset ?_).symm
    intro q hq
    rw [List.mem_singleton.mp hq]
    exact mem_toList.mpr (h.mem_of_has hp hhas)
  | false =>
    have hlist : (f.insert p).toList = f.toList ++ [p] := by
      rw [insert, hhas]
      exact List.reverse_cons
    rw [hlist]
    exact .refl _

theorem insert (h : f.ClosedBut step start open_) (hp : start.LeadsTo p)
    (hfurther : ¬ open_ p → ∀ m ∈ step p, p.index < m.index → m ∈ (f.insert p).latestFirst) :
    (f.insert p).ClosedBut step start open_ where
  faithful := h.faithful.insert p
  reached := h.reached.insert hp
  closed := by
    intro q hq hopen m hm hlt
    rcases mem_insert hq with rfl | hq
    · exact hfurther hopen m hm hlt
    · exact mem_insert_of_mem (h.closed q hq hopen m hm hlt)

theorem mono {open' : Point → Prop} (h : f.ClosedBut step start open_)
    (hopen : ∀ q, open_ q → open' q) : f.ClosedBut step start open' where
  faithful := h.faithful
  reached := h.reached
  closed := by
    intro q hq hnot
    exact h.closed q hq fun ho => hnot (hopen q ho)

/-- A place is closed once all that a round leads to from there has been found. -/
theorem close (h : f.ClosedBut step start fun q => open_ q ∨ q = p)
    (hp : ∀ m ∈ step p, p.index < m.index → m ∈ f.latestFirst) :
    f.ClosedBut step start open_ where
  faithful := h.faithful
  reached := h.reached
  closed := by
    intro q hq hopen
    by_cases hqp : q = p
    · exact hqp ▸ hp
    · exact h.closed q hq fun ho => ho.elim hopen hqp

/-- All that lies beyond a place that has been found, and is not open, has been found. -/
theorem onward_subset (h : f.ClosedBut step start open_) (n : Nat) (hp : p ∈ f.latestFirst)
    (hopen : ∀ q, open_ q → q.index < p.index) :
    ∀ q ∈ Ways.onward step lazy n p, q ∈ f.latestFirst := by
  induction n generalizing p with
  | zero =>
    intro q hq
    exact List.mem_singleton.mp hq ▸ hp
  | succ n ih =>
    intro q hq
    unfold Ways.onward at hq
    rcases Ways.mem_orStay.mp hq with rfl | hq
    · exact hp
    obtain ⟨m, hm, hq⟩ := List.mem_flatMap.mp hq
    obtain ⟨hm, hlt⟩ := List.mem_filter.mp hm
    have hlt : p.index < m.index := of_decide_eq_true hlt
    have hnot : ¬ open_ p := fun ho => Nat.lt_irrefl _ (hopen p ho)
    exact ih (h.closed p hp hnot m hm hlt) (fun q hq => Nat.lt_trans (hopen q hq) hlt) q hq

end Found.ClosedBut

/-- Adding to the places found what `w` lists, in its order; what is closed stays closed. -/
def Adds (step : Point → List Point) (start : Point) (open_ : Point → Prop)
    (w : List Point) (g : Found → Found) : Prop :=
  ∀ f : Found, f.ClosedBut step start open_ →
    (g f).ClosedBut step start open_ ∧ Agree (g f).toList (f.toList ++ w)

theorem Adds.foldl {open_ : Point → Prop} {w : Point → List Point}
    {g : Found → Point → Found} {ps : List Point}
    (h : ∀ p ∈ ps, Adds step start open_ (w p) fun f => g f p) :
    Adds step start open_ (ps.flatMap w) fun f => ps.foldl g f := by
  intro f hf
  induction ps generalizing f with
  | nil =>
    refine ⟨hf, ?_⟩
    rw [List.flatMap_nil, List.append_nil]
    exact .refl _
  | cons p ps ih =>
    obtain ⟨hclosed, hagree⟩ := h p (.head _) f hf
    obtain ⟨hclosed', hagree'⟩ := ih (fun q hq => h q (.tail _ hq)) (g f p) hclosed
    refine ⟨hclosed', hagree'.trans ?_⟩
    rw [List.flatMap_cons, ← List.append_assoc]
    exact hagree.append (.refl _)

theorem Ways.mem_onward_self (n : Nat) (p : Point) : p ∈ Ways.onward step lazy n p := by
  cases n with
  | zero => exact .head _
  | succ n => exact Ways.mem_orStay.mpr (.inl rfl)

theorem adds_explore (hstep : ∀ p, ∀ q ∈ step p, p.LeadsTo q) {open_ : Point → Prop} {n : Nat}
    (hp : start.LeadsTo p) (hopen : ∀ q, open_ q → q.index < p.index)
    (hn : p.ahead.length ≤ n) :
    Adds step start open_ (Ways.onward step lazy n p) fun f => explore step lazy n f p := by
  induction n generalizing p open_ with
  | zero =>
    intro f hf
    refine ⟨hf.insert hp ?_, hf.agree_insert hp⟩
    intro _ m hm hlt
    have := (hstep p m hm).index_add_length
    omega
  | succ n ih =>
    intro f hf
    show (explore step lazy (n + 1) f p).ClosedBut step start open_
      ∧ Agree (explore step lazy (n + 1) f p).toList _
    unfold explore
    cases hhas : f.has p with
    | true =>
      -- All that lies beyond `p` has been found with it.
      refine ⟨hf, (Agree.append_of_subset ?_).symm⟩
      intro q hq
      exact Found.mem_toList.mpr (hf.onward_subset _ (hf.mem_of_has hp hhas) hopen q hq)
    | false =>
      let further := (step p).filter fun q => p.index < q.index
      have hfurther : ∀ open' : Point → Prop, (∀ q, open' q → q.index ≤ p.index) →
          Adds step start open' (further.flatMap (Ways.onward step lazy n))
            fun f => further.foldl (explore step lazy n) f := by
        intro open' hopen'
        refine .foldl fun q hq => ?_
        obtain ⟨hq, hlt⟩ := List.mem_filter.mp hq
        have hlt : p.index < q.index := of_decide_eq_true hlt
        have hlength := (hstep p q hq).index_add_length
        refine ih (hp.trans (hstep p q hq)) ?_ (by omega)
        intro m hm
        exact Nat.lt_of_le_of_lt (hopen' m hm) hlt
      have hbeyond : ∀ m ∈ step p, p.index < m.index →
          m ∈ further.flatMap (Ways.onward step lazy n) := by
        intro m hm hlt
        exact List.mem_flatMap.mpr
          ⟨m, List.mem_filter.mpr ⟨hm, decide_eq_true hlt⟩, Ways.mem_onward_self n m⟩
      cases lazy with
      | true =>
        -- While what lies beyond `p` is being found, `p` is open as well.
        have hinsert : (f.insert p).ClosedBut step start fun q => open_ q ∨ q = p :=
          (hf.mono fun _ => .inl).insert hp fun ho => absurd (.inr rfl) ho
        have hopen' : ∀ q, open_ q ∨ q = p → q.index ≤ p.index := by
          rintro q (ho | rfl)
          · exact Nat.le_of_lt (hopen q ho)
          · exact Nat.le_refl _
        obtain ⟨hclosed, hagree⟩ := hfurther _ hopen' _ hinsert
        have hall : Agree (further.foldl (explore step true n) (f.insert p)).toList
            (f.toList ++ p :: further.flatMap (Ways.onward step true n)) := by
          refine hagree.trans ?_
          rw [List.append_cons]
          exact (hf.agree_insert hp).append (.refl _)
        refine ⟨hclosed.close ?_, hall⟩
        intro m hm hlt
        refine Found.mem_toList.mp (hall.mem_iff.mpr ?_)
        exact List.mem_append_right _ (.tail _ (hbeyond m hm hlt))
      | false =>
        obtain ⟨hclosed, hagree⟩ :=
          hfurther open_ (fun q hq => Nat.le_of_lt (hopen q hq)) f hf
        refine ⟨hclosed.insert hp ?_, ?_⟩
        · intro _ m hm hlt
          refine Found.mem_insert_of_mem (Found.mem_toList.mp (hagree.mem_iff.mpr ?_))
          exact List.mem_append_right _ (hbeyond m hm hlt)
        · refine (hclosed.agree_insert hp).trans ?_
          show Agree _ (f.toList ++ (further.flatMap (Ways.onward step false n) ++ [p]))
          rw [← List.append_assoc]
          exact hagree.append (.refl _)

end Memory

/-! ## Repetition -/

section Repetition

variable {step : Point → List Point} {lazy : Bool}

theorem leadsTo_step (hstep : ∀ p, ∀ q ∈ step p, p.LeadsTo q) (p : Point) :
    ∀ m, p.LeadsTo m → ∀ q ∈ step m, p.LeadsTo q :=
  fun m hm q hq => hm.trans (hstep m q hq)

theorem agree_rounds (hstep : ∀ p, ∀ q ∈ step p, p.LeadsTo q) (p : Point) :
    Agree (rounds step lazy p) (Ways.rounds step lazy p) := by
  have hround : ∀ q ∈ step p, Adds step p (· = p)
      (if q.index = p.index then [q] else Ways.onward step lazy q.ahead.length q)
      fun f => if q.index = p.index then f.insert q
        else explore step lazy q.ahead.length f q := by
    intro q hq
    by_cases hi : q.index = p.index
    · simp only [if_pos hi]
      intro f hf
      refine ⟨hf.insert (hstep p q hq) ?_, hf.agree_insert (hstep p q hq)⟩
      intro ho
      exact absurd ((hstep p q hq).eq_of_index_eq (.refl p) hi) ho
    · simp only [if_neg hi]
      have hle := (hstep p q hq).index_le
      refine adds_explore hstep (hstep p q hq) ?_ (Nat.le_refl _)
      rintro m rfl
      omega
  exact (Adds.foldl hround Found.empty .empty).2

theorem Ways.exactly_add_one (n : Nat) (p : Point) :
    Ways.exactly step (n + 1) p = (Ways.exactly step n p).flatMap step := by
  induction n generalizing p with
  | zero =>
    show (step p).flatMap (fun q => [q]) = [p].flatMap step
    rw [List.flatMap_singleton', List.flatMap_singleton]
  | succ n ih =>
    show (step p).flatMap (Ways.exactly step (n + 1)) = ((step p).flatMap _).flatMap step
    rw [List.flatMap_assoc]
    exact congrArg (List.flatMap · (step p)) (funext ih)

theorem agree_exactly (hstep : ∀ p, ∀ q ∈ step p, p.LeadsTo q) (n : Nat) (p : Point) :
    Agree (exactly step n p) (Ways.exactly step n p) := by
  induction n with
  | zero => exact .refl _
  | succ n ih =>
    rw [Ways.exactly_add_one]
    refine (agree_distinct (p := p) ?_).trans (ih.flatMap fun _ => .refl _)
    intro q hq
    obtain ⟨m, hm, hq⟩ := List.mem_flatMap.mp hq
    exact leadsTo_step hstep p m (exactly_all (leadsTo_step hstep p) (.refl p) m hm) q hq

theorem agree_orStay {p : Point} {further : List Point} (hstep : ∀ q ∈ step p, p.LeadsTo q)
    (h : Agree (step p) further) : Agree (orStay step lazy p) (Ways.orStay lazy p further) := by
  have hagree : Agree (if lazy then p :: step p else step p ++ [p])
      (Ways.orStay lazy p further) := by
    cases lazy with
    | true => exact (Agree.refl [p]).append h
    | false => exact h.append (.refl [p])
  refine (agree_distinct (p := p) ?_).trans hagree
  intro q hq
  rcases Ways.mem_orStay.mp hq with rfl | hq
  · exact .refl q
  · exact hstep q hq

theorem agree_atMost (hstep : ∀ p, ∀ q ∈ step p, p.LeadsTo q) (n : Nat) (p : Point) :
    Agree (atMost step lazy n p) (Ways.atMost step lazy n p) := by
  induction n generalizing p with
  | zero => exact .refl _
  | succ n ih =>
    have hround : ∀ q ∈ (step p).flatMap (atMost step lazy n), p.LeadsTo q := by
      intro q hq
      obtain ⟨m, hm, hq⟩ := List.mem_flatMap.mp hq
      exact (hstep p m hm).trans (atMost_all (leadsTo_step hstep m) (.refl m) q hq)
    refine agree_orStay (fun q hq => hround q (mem_distinct hq)) ?_
    exact (agree_distinct hround).trans ((Agree.refl _).flatMap ih)

theorem agree_repeated (hstep : ∀ p, ∀ q ∈ step p, p.LeadsTo q) (lo : Nat)
    (hi : Option Nat) (p : Point) :
    Agree (repeated step lazy lo hi p) (Ways.repeated step lazy lo hi p) := by
  have hrounds : ∀ p, ∀ q ∈ rounds step lazy p, p.LeadsTo q :=
    fun p => rounds_all (leadsTo_step hstep p) (hstep p)
  have hatMost : ∀ n p, ∀ q ∈ atMost step lazy n p, p.LeadsTo q :=
    fun n p => atMost_all (leadsTo_step hstep p) (.refl p)
  have hthen : ∀ (n : Nat) (f g : Point → List Point), (∀ p, ∀ q ∈ f p, p.LeadsTo q) →
      (∀ p, Agree (f p) (g p)) →
      Agree (distinct ((exactly step n p).flatMap f)) ((Ways.exactly step n p).flatMap g) := by
    intro n f g hf hfg
    refine (agree_distinct (p := p) ?_).trans ((agree_exactly hstep n p).flatMap hfg)
    intro q hq
    obtain ⟨m, hm, hq⟩ := List.mem_flatMap.mp hq
    exact (exactly_all (leadsTo_step hstep p) (.refl p) m hm).trans (hf m q hq)
  unfold repeated
  split
  case h_1 => exact agree_orStay (hrounds p) (agree_rounds hstep p)
  case h_2 lo => exact hthen lo _ _ hrounds (agree_rounds hstep)
  case h_3 lo hi =>
    rw [Ways.repeated_some]
    exact hthen _ _ _ (hatMost _) (agree_atMost hstep _)

end Repetition

/-! ## Steps that agree -/

section Congruence

variable {f g : Point → List Point} {lazy : Bool}

theorem Agree.orStay {l m : List Point} (h : Agree l m) (p : Point) :
    Agree (Ways.orStay lazy p l) (Ways.orStay lazy p m) := by
  cases lazy with
  | true => exact (Agree.refl [p]).append h
  | false => exact h.append (.refl [p])

theorem Ways.agree_onward (hfg : ∀ p, Agree (f p) (g p)) (n : Nat) (p : Point) :
    Agree (Ways.onward f lazy n p) (Ways.onward g lazy n p) := by
  induction n generalizing p with
  | zero => exact .refl _
  | succ n ih => exact (((hfg p).filter _).flatMap ih).orStay p

theorem Ways.agree_rounds (hfg : ∀ p, Agree (f p) (g p)) (p : Point) :
    Agree (Ways.rounds f lazy p) (Ways.rounds g lazy p) := by
  refine (hfg p).flatMap fun q => ?_
  split
  case isTrue => exact .refl _
  case isFalse => exact Ways.agree_onward hfg _ q

theorem Ways.agree_exactly (hfg : ∀ p, Agree (f p) (g p)) (n : Nat) (p : Point) :
    Agree (Ways.exactly f n p) (Ways.exactly g n p) := by
  induction n generalizing p with
  | zero => exact .refl _
  | succ n ih => exact (hfg p).flatMap ih

theorem Ways.agree_atMost (hfg : ∀ p, Agree (f p) (g p)) (n : Nat) (p : Point) :
    Agree (Ways.atMost f lazy n p) (Ways.atMost g lazy n p) := by
  induction n generalizing p with
  | zero => exact .refl _
  | succ n ih => exact ((hfg p).flatMap ih).orStay p

theorem Ways.agree_repeated (hfg : ∀ p, Agree (f p) (g p)) (lo : Nat) (hi : Option Nat)
    (p : Point) : Agree (Ways.repeated f lazy lo hi p) (Ways.repeated g lazy lo hi p) := by
  unfold Ways.repeated
  split
  case h_1 => exact (Ways.agree_rounds hfg p).orStay p
  case h_2 => exact (Ways.agree_exactly hfg _ p).flatMap (Ways.agree_rounds hfg)
  case h_3 => exact (Ways.agree_exactly hfg _ p).flatMap (Ways.agree_atMost hfg _)

end Congruence

/-! ## Single characters -/

section Single

/-- What a run adds to the nearer places. -/
theorem Class.run_eq_append (a : Class) (p : Point) (nearer : List Point) :
    a.run p nearer = a.run p [] ++ nearer := by
  suffices h : ∀ (n : Nat) (p : Point) (l m : List Point), p.ahead.length = n →
      a.run p (l ++ m) = a.run p l ++ m from h _ p [] nearer rfl
  intro n
  induction n with
  | zero =>
    intro p l m hn
    have hp := List.eq_nil_of_length_eq_zero hn
    rw [run_of_nil hp, run_of_nil hp]
    rfl
  | succ n ih =>
    intro p l m hn
    obtain ⟨c, rest, hp⟩ := List.exists_cons_of_length_eq_add_one hn
    rw [run_of_cons hp, run_of_cons hp]
    split
    case isTrue =>
      refine ih (p.read c rest) (p :: l) m ?_
      rw [hp] at hn
      exact Nat.succ.inj hn
    case isFalse => rfl

theorem Class.ends_run_cons {a : Class} {p : Point} {c : Char} {t : List Char}
    (h : p.ahead = c :: t) :
    a.run p [] = if a.contains c then a.run (p.read c t) [] ++ [p] else [p] := by
  rw [run_of_cons h]
  split
  case isTrue => exact a.run_eq_append _ _
  case isFalse => rfl

variable (a : Class) (lazy : Bool)

/-- The places that reading characters of the class leads to, the nearest first. -/
def Class.chain (p : Point) : List Point := (a.run p []).reverse

theorem Class.chain_eq (p : Point) : a.chain p = p :: (a.ends p).flatMap a.chain := by
  obtain ⟨past, ahead, i, hi⟩ := p
  cases ahead with
  | nil =>
    rw [chain, Class.run_of_nil rfl]
    rfl
  | cons c rest =>
    rw [chain, Class.ends_run_cons (c := c) (t := rest) rfl]
    show _ = _ :: (if a.contains c then [_] else []).flatMap a.chain
    split
    case isTrue =>
      rw [List.reverse_append, List.flatMap_singleton]
      rfl
    case isFalse => rfl

/-- A character leads to one place or to none. -/
theorem Class.ends_eq_nil_or_singleton (p : Point) :
    a.ends p = [] ∨ ∃ q, a.ends p = [q] := by
  unfold ends
  split
  case h_1 => exact .inl rfl
  case h_2 c rest _ =>
    split
    case isTrue => exact .inr ⟨_, rfl⟩
    case isFalse => exact .inl rfl

/-- The farther places first, unless the repetition is lazy. -/
def inPreference (ps : List Point) : List Point := if lazy then ps else ps.reverse

theorem Ways.orStay_inPreference (p : Point) (ps : List Point) :
    Ways.orStay lazy p (inPreference lazy ps) = inPreference lazy (p :: ps) := by
  cases lazy with
  | true => rfl
  | false => exact List.reverse_cons.symm

/-- Rounds of a single character go along the chain. -/
theorem Class.flatMap_inPreference (f : List Point → List Point) (hf : f [] = []) (p : Point) :
    (a.ends p).flatMap (fun q => inPreference lazy (f (a.chain q)))
      = inPreference lazy (f (a.chain p).tail) := by
  rw [a.chain_eq p, List.tail_cons]
  rcases a.ends_eq_nil_or_singleton p with h | ⟨q, h⟩
  · rw [h, List.flatMap_nil, List.flatMap_nil, hf]
    cases lazy <;> rfl
  · rw [h, List.flatMap_singleton, List.flatMap_singleton]

theorem Ways.atMost_class_ends (n : Nat) (p : Point) :
    Ways.atMost a.ends lazy n p = inPreference lazy ((a.chain p).take (n + 1)) := by
  induction n generalizing p with
  | zero =>
    rw [a.chain_eq p]
    cases lazy <;> rfl
  | succ n ih =>
    show Ways.orStay lazy p ((a.ends p).flatMap (Ways.atMost a.ends lazy n)) = _
    rw [funext ih, a.flatMap_inPreference lazy (List.take (n + 1)) List.take_nil,
      Ways.orStay_inPreference, a.chain_eq p]
    rfl

theorem Ways.onward_class_ends {n : Nat} {p : Point} (hn : p.ahead.length ≤ n) :
    Ways.onward a.ends lazy n p = inPreference lazy (a.chain p) := by
  induction n generalizing p with
  | zero =>
    have hp : p.ahead = [] := List.eq_nil_of_length_eq_zero (Nat.le_zero.mp hn)
    rw [Class.chain, Class.run_of_nil hp]
    cases lazy <;> rfl
  | succ n ih =>
    unfold Ways.onward
    rw [a.chain_eq p]
    rcases a.ends_eq_nil_or_singleton p with h | ⟨q, h⟩
    · rw [h]
      cases lazy <;> rfl
    · obtain ⟨c, _, hahead, hpast⟩ := reaches_of_mem_class_ends (h ▸ List.mem_singleton_self q)
      have hlt : p.index < q.index := by
        rw [p.index_eq, q.index_eq, hpast]
        exact Nat.lt_succ_self _
      have hq : q.ahead.length ≤ n := by
        rw [hahead] at hn
        exact Nat.le_of_succ_le_succ hn
      have hkeep : [q].filter (fun q => p.index < q.index) = [q] :=
        List.filter_cons_of_pos (decide_eq_true hlt)
      rw [h, hkeep, List.flatMap_singleton, List.flatMap_singleton, ih hq,
        Ways.orStay_inPreference]

theorem Ways.rounds_class_ends (p : Point) :
    Ways.rounds a.ends lazy p = inPreference lazy (a.chain p).tail := by
  refine Eq.trans ?_ (a.flatMap_inPreference lazy id rfl p)
  unfold Ways.rounds
  rcases a.ends_eq_nil_or_singleton p with h | ⟨q, h⟩
  · rw [h]
    rfl
  · obtain ⟨c, _, _, hpast⟩ := reaches_of_mem_class_ends (h ▸ List.mem_singleton_self q)
    have hne : q.index ≠ p.index := by
      rw [p.index_eq, q.index_eq, hpast]
      exact Nat.succ_ne_self _
    rw [h, List.flatMap_singleton, List.flatMap_singleton, if_neg hne]
    exact Ways.onward_class_ends a lazy (Nat.le_refl _)

theorem Ways.flatMap_exactly_class_ends (f : List Point → List Point) (hf : f [] = []) (n : Nat)
    (p : Point) :
    (Ways.exactly a.ends n p).flatMap (fun q => inPreference lazy (f (a.chain q)))
      = inPreference lazy (f ((a.chain p).drop n)) := by
  induction n generalizing p with
  | zero => exact List.flatMap_singleton ..
  | succ n ih =>
    show ((a.ends p).flatMap (Ways.exactly a.ends n)).flatMap _ = _
    rw [List.flatMap_assoc, funext ih, ← List.drop_tail]
    exact a.flatMap_inPreference lazy (fun ps => f (ps.drop n)) (by rw [List.drop_nil, hf]) p

/-- Nothing is lost by going along the run. -/
theorem Class.repeated_eq_ways (lo : Nat) (hi : Option Nat) (p : Point) :
    a.repeated lazy lo hi p = Ways.repeated a.ends lazy lo hi p := by
  cases hi with
  | none =>
    show inPreference lazy ((a.chain p).drop lo) = _
    cases lo with
    | zero =>
      show _ = Ways.orStay lazy p (Ways.rounds a.ends lazy p)
      rw [Ways.rounds_class_ends, Ways.orStay_inPreference, a.chain_eq p]
      rfl
    | succ lo =>
      show _ = (Ways.exactly a.ends lo p).flatMap (Ways.rounds a.ends lazy)
      rw [funext (Ways.rounds_class_ends a lazy),
        Ways.flatMap_exactly_class_ends a lazy List.tail rfl, List.tail_drop]
  | some hi =>
    show inPreference lazy (((a.chain p).drop lo).take (hi - lo + 1)) = _
    rw [Ways.repeated_some, funext (Ways.atMost_class_ends a lazy (hi - lo)),
      Ways.flatMap_exactly_class_ends a lazy (List.take (hi - lo + 1)) List.take_nil]

end Single

/-! ## Ends and ways -/

theorem eq_one_of_single? {r : Regex} {a : Class} (h : r.single? = some a) : r = one a := by
  cases r <;> simp_all [single?]

theorem agree_ends_seq (r s : Regex) (p : Point) :
    Agree ((seq r s).ends p) ((r.ends p).flatMap s.ends) := by
  refine agree_distinct (p := p) fun q hq => ?_
  obtain ⟨m, hm, hq⟩ := List.mem_flatMap.mp hq
  exact (leadsTo_of_mem_ends hm).trans (leadsTo_of_mem_ends hq)

theorem agree_ends_alt (r s : Regex) (p : Point) :
    Agree ((alt r s).ends p) (r.ends p ++ s.ends p) := by
  refine agree_distinct (p := p) fun q hq => ?_
  exact (List.mem_append.mp hq).elim leadsTo_of_mem_ends leadsTo_of_mem_ends

theorem agree_ends_times (r : Regex) (lo : Nat) (hi : Option Nat) (lazy : Bool) (p : Point) :
    Agree ((times r lo hi lazy).ends p) (Ways.repeated r.ends lazy lo hi p) := by
  unfold ends
  split
  case h_1 a ha =>
    rw [eq_one_of_single? ha, a.repeated_eq_ways]
    exact .refl _
  case h_2 => exact agree_repeated (fun p q hq => leadsTo_of_mem_ends hq) lo hi p

/-- Remembering the places found, and following none again, loses nothing. -/
theorem agree_ends_ways (r : Regex) (p : Point) : Agree (r.ends p) (r.ways p) := by
  induction r generalizing p with
  | empty => exact .refl _
  | one a => exact .refl _
  | assert a => exact .refl _
  | seq r s ihr ihs => exact (agree_ends_seq r s p).trans ((ihr p).flatMap ihs)
  | alt r s ihr ihs => exact (agree_ends_alt r s p).trans ((ihr p).append (ihs p))
  | times r lo hi lazy ih =>
    exact (agree_ends_times r lo hi lazy p).trans (Ways.agree_repeated ih lo hi p)

/-- The preferred match is that of the first way through. -/
theorem matchAt_eq_head?_ways (r : Regex) (p : Point) : r.matchAt p = (r.ways p).head? :=
  (agree_ends_ways r p).head?_eq

theorem mem_ends_iff_mem_ways {r : Regex} {p q : Point} : q ∈ r.ends p ↔ q ∈ r.ways p :=
  (agree_ends_ways r p).mem_iff

end SourceTokens.Regex
