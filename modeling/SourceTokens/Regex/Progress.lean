/-
# `SourceTokens.Regex.Progress` — a match reads what lies between its ends

Every place that `ends` lists is reached by reading forward, and an expression
that is not nullable reads at least one character:

    q ∈ r.ends p → ∃ w, p.Reaches w q ∧ (r.nullable = false → w ≠ [])

The loops over a text end because of it.  The induction follows `ends`; each of
its building blocks keeps any property of places that its steps keep.
-/
import SourceTokens.Regex.Ends

namespace SourceTokens.Regex

/-! ## What the collections hold -/

theorem Found.mem_insert {f : Found} {p q : Point}
    (h : q ∈ (f.insert p).latestFirst) : q = p ∨ q ∈ f.latestFirst := by
  unfold Found.insert at h
  split at h
  · exact .inr h
  · simpa using h

/-- `f.All P`: every place found has the property `P`. -/
def Found.All (P : Point → Prop) (f : Found) : Prop := ∀ q ∈ f.latestFirst, P q

theorem Found.all_empty (P : Point → Prop) : Found.empty.All P := by
  simp [Found.All, Found.empty]

theorem Found.All.insert {P : Point → Prop} {f : Found} (hf : f.All P) {p : Point}
    (hp : P p) : (f.insert p).All P := fun q h => by
  rcases mem_insert h with rfl | h
  · exact hp
  · exact hf q h

theorem Found.All.foldl {P : Point → Prop} {g : Found → Point → Found}
    {ps : List Point} (hg : ∀ f, f.All P → ∀ p ∈ ps, (g f p).All P) {f : Found}
    (hf : f.All P) : (ps.foldl g f).All P := by
  induction ps generalizing f with
  | nil => exact hf
  | cons p ps ih =>
    exact ih (fun f hf q hq => hg f hf q (.tail _ hq)) (hg f hf p (.head _))

theorem mem_distinct {ps : List Point} {q : Point} (h : q ∈ distinct ps) :
    q ∈ ps := by
  unfold distinct at h
  split at h
  · exact h
  · exact h
  · have : (ps.foldl Found.insert .empty).All (· ∈ ps) :=
      .foldl (fun f hf p hp => hf.insert hp) (Found.all_empty _)
    exact this q (by simpa [Found.toList] using h)

/-! ## What repetition leads to -/

section Repetition

variable {step : Point → List Point} {lazy : Bool} {P : Point → Prop}

theorem explore_all (hstep : ∀ p, P p → ∀ q ∈ step p, P q) {n : Nat} {f : Found}
    {p : Point} (hf : f.All P) (hp : P p) : (explore step lazy n f p).All P := by
  induction n generalizing f p with
  | zero => exact hf.insert hp
  | succ n ih =>
    have hfurther {f : Found} (hf : f.All P) :
        (((step p).filter fun q => p.index < q.index).foldl
          (explore step lazy n) f).All P :=
      .foldl (fun f hf q hq => ih hf (hstep p hp q (List.mem_filter.mp hq).1)) hf
    unfold explore
    split
    · exact hf
    · split
      · exact hfurther (hf.insert hp)
      · exact (hfurther hf).insert hp

theorem rounds_all (hstep : ∀ p, P p → ∀ q ∈ step p, P q) {p : Point}
    (hp : ∀ q ∈ step p, P q) : ∀ q ∈ rounds step lazy p, P q := by
  intro q hq
  have hall : ((step p).foldl (fun f q =>
      if q.index = p.index then f.insert q
      else explore step lazy q.ahead.length f q) .empty).All P := by
    refine .foldl (fun f hf q hq => ?_) (Found.all_empty P)
    split
    · exact hf.insert (hp q hq)
    · exact explore_all hstep hf (hp q hq)
  exact hall q (by simpa [rounds, Found.toList] using hq)

theorem exactly_all (hstep : ∀ p, P p → ∀ q ∈ step p, P q) {n : Nat} {p : Point}
    (hp : P p) : ∀ q ∈ exactly step n p, P q := by
  induction n with
  | zero => simpa [exactly] using hp
  | succ n ih =>
    intro q hq
    obtain ⟨m, hm, hq⟩ := List.mem_flatMap.mp (mem_distinct hq)
    exact hstep m (ih m hm) q hq

theorem orStay_all {p : Point} (hstep : ∀ q ∈ step p, P q) (hp : P p) :
    ∀ q ∈ orStay step lazy p, P q := by
  intro q hq
  have := mem_distinct hq
  split at this <;> simp only [List.mem_cons, List.mem_append, List.not_mem_nil,
    or_false] at this <;> rcases this with h | h
  · exact h ▸ hp
  · exact hstep q h
  · exact hstep q h
  · exact h ▸ hp

theorem atMost_all (hstep : ∀ p, P p → ∀ q ∈ step p, P q) {n : Nat} {p : Point}
    (hp : P p) : ∀ q ∈ atMost step lazy n p, P q := by
  induction n generalizing p with
  | zero => simpa [atMost] using hp
  | succ n ih =>
    refine orStay_all (fun q hq => ?_) hp
    obtain ⟨m, hm, hq⟩ := List.mem_flatMap.mp (mem_distinct hq)
    exact ih (hstep p hp m hm) q hq

theorem repeated_all (hstep : ∀ p, P p → ∀ q ∈ step p, P q) {lo : Nat}
    {hi : Option Nat} {p : Point} (hp : P p) :
    ∀ q ∈ repeated step lazy lo hi p, P q := by
  intro q hq
  unfold repeated at hq
  split at hq
  · exact orStay_all (rounds_all hstep (hstep p hp)) hp q hq
  · obtain ⟨m, hm, hq⟩ := List.mem_flatMap.mp (mem_distinct hq)
    exact rounds_all hstep (hstep m (exactly_all hstep hp m hm)) q hq
  · obtain ⟨m, hm, hq⟩ := List.mem_flatMap.mp (mem_distinct hq)
    exact atMost_all hstep (exactly_all hstep hp m hm) q hq

end Repetition

/-! ## Reading forward -/

theorem reaches_of_mem_class_ends {a : Class} {p q : Point} (h : q ∈ a.ends p) :
    ∃ c, a.contains c ∧ p.Reaches [c] q := by
  obtain ⟨past, ahead, i, hi⟩ := p
  cases ahead with
  | nil => simp [Class.ends] at h
  | cons c rest =>
    simp only [Class.ends] at h
    split at h
    case isTrue hc =>
      simp only [List.mem_singleton] at h
      exact ⟨c, hc, by simp [h, Point.Reaches]⟩
    case isFalse => simp at h

theorem mem_run {a : Class} {p : Point} {nearer : List Point} {q : Point}
    (h : q ∈ a.run p nearer) : q ∈ nearer ∨ ∃ w, p.Reaches w q := by
  fun_induction Class.run a p nearer with
  | case1 p nearer hp =>
    rcases List.mem_cons.mp h with rfl | h
    · exact .inr ⟨[], .refl q⟩
    · exact .inl h
  | case2 p nearer c rest hp hc ih =>
    have hread : p.Reaches [c] (p.read c rest) := ⟨hp, rfl⟩
    rcases ih h with h | ⟨w, hw⟩
    · rcases List.mem_cons.mp h with rfl | h
      · exact .inr ⟨[], .refl q⟩
      · exact .inl h
    · exact .inr ⟨_, hread.trans hw⟩
  | case3 p nearer c rest hp hc =>
    rcases List.mem_cons.mp h with rfl | h
    · exact .inr ⟨[], .refl q⟩
    · exact .inl h

theorem mem_class_repeated {a : Class} {lazy : Bool} {lo : Nat} {hi : Option Nat}
    {p q : Point} (h : q ∈ a.repeated lazy lo hi p) :
    q ∈ (a.run p []).reverse.drop lo := by
  unfold Class.repeated at h
  cases hi with
  | none => cases lazy <;> simpa using h
  | some hi =>
    have : q ∈ ((a.run p []).reverse.drop lo).take (hi - lo + 1) := by
      cases lazy <;> simpa using h
    exact List.mem_of_mem_take this

theorem exists_reaches_of_mem_class_repeated {a : Class} {lazy : Bool} {lo : Nat}
    {hi : Option Nat} {p q : Point} (h : q ∈ a.repeated lazy lo hi p) :
    ∃ w, p.Reaches w q := by
  have := List.mem_reverse.mp (List.mem_of_mem_drop (mem_class_repeated h))
  simpa using mem_run this

/-- The places of a run but the last have something read before them. -/
theorem ahead_lt_of_mem_run {a : Class} {p : Point} {q : Point}
    (h : q ∈ (a.run p []).reverse.drop 1) : q.ahead.length < p.ahead.length := by
  suffices key : ∀ (p : Point) (nearer : List Point), ∃ l, a.run p nearer = l ++ p :: nearer
      ∧ ∀ q ∈ l, q.ahead.length < p.ahead.length by
    obtain ⟨l, hl, hlt⟩ := key p []
    rw [hl] at h
    simp only [List.reverse_append, List.reverse_cons, List.reverse_nil, List.nil_append,
      List.cons_append, List.drop_succ_cons, List.drop_zero, List.mem_reverse] at h
    exact hlt q h
  intro p nearer
  fun_induction Class.run a p nearer with
  | case1 p nearer hp => exact ⟨[], rfl, by simp⟩
  | case3 p nearer c rest hp hc => exact ⟨[], rfl, by simp⟩
  | case2 p nearer c rest hp hc ih =>
    obtain ⟨l, hl, hlt⟩ := ih
    refine ⟨l ++ [p.read c rest], by simp [hl], fun q hq => ?_⟩
    have hlen : (p.read c rest).ahead.length < p.ahead.length := by simp [hp]
    rcases List.mem_append.mp hq with hq | hq
    · exact Nat.lt_trans (hlt q hq) hlen
    · rw [List.mem_singleton.mp hq]; exact hlen

theorem ahead_lt_of_mem_class_repeated {a : Class} {lazy : Bool} {lo : Nat}
    {hi : Option Nat} {p q : Point} (h : q ∈ a.repeated lazy (lo + 1) hi p) :
    q.ahead.length < p.ahead.length := by
  apply ahead_lt_of_mem_run (a := a)
  have := mem_class_repeated h
  rw [Nat.add_comm, ← List.drop_drop] at this
  exact List.mem_of_mem_drop this

theorem exists_reaches_of_mem_ends {r : Regex} {p q : Point} (h : q ∈ r.ends p) :
    ∃ w, p.Reaches w q := by
  induction r generalizing p q with
  | empty => exact ⟨[], by simp_all [ends, Point.Reaches.refl]⟩
  | one a => exact (reaches_of_mem_class_ends h).imp' (fun c => [c]) fun _ => And.right
  | assert a =>
    simp only [ends] at h
    split at h
    · exact ⟨[], by simp_all [Point.Reaches.refl]⟩
    · simp at h
  | seq r s ihr ihs =>
    obtain ⟨m, hm, hq⟩ := List.mem_flatMap.mp (mem_distinct h)
    obtain ⟨⟨u, hu⟩, v, hv⟩ := And.intro (ihr hm) (ihs hq)
    exact ⟨u ++ v, hu.trans hv⟩
  | alt r s ihr ihs =>
    rcases List.mem_append.mp (mem_distinct h) with h | h
    · exact ihr h
    · exact ihs h
  | times r lo hi lazy ih =>
    simp only [ends] at h
    split at h
    · exact exists_reaches_of_mem_class_repeated h
    · refine repeated_all (P := fun q => ∃ w, p.Reaches w q) ?_ ⟨[], .refl p⟩ q h
      rintro m ⟨u, hu⟩ q hq
      obtain ⟨v, hv⟩ := ih hq
      exact ⟨u ++ v, hu.trans hv⟩

/-- An expression that is not nullable reads at least one character. -/
theorem ahead_lt_of_mem_ends {r : Regex} {p q : Point} (hr : r.nullable = false)
    (h : q ∈ r.ends p) : q.ahead.length < p.ahead.length := by
  have le {r : Regex} {p q : Point} (h : q ∈ r.ends p) :
      q.ahead.length ≤ p.ahead.length := by
    obtain ⟨w, hw, _⟩ := exists_reaches_of_mem_ends h
    simp [hw]
  induction r generalizing p q with
  | empty => simp [nullable] at hr
  | assert a => simp [nullable] at hr
  | one a =>
    obtain ⟨c, _, hc, _⟩ := reaches_of_mem_class_ends h
    simp [hc]
  | seq r s ihr ihs =>
    obtain ⟨m, hm, hq⟩ := List.mem_flatMap.mp (mem_distinct h)
    simp only [nullable, Bool.and_eq_false_iff] at hr
    rcases hr with hr | hs
    · exact Nat.lt_of_le_of_lt (le hq) (ihr hr hm)
    · exact Nat.lt_of_lt_of_le (ihs hs hq) (le hm)
  | alt r s ihr ihs =>
    simp only [nullable, Bool.or_eq_false_iff] at hr
    rcases List.mem_append.mp (mem_distinct h) with h | h
    · exact ihr hr.1 h
    · exact ihs hr.2 h
  | times r lo hi lazy ih =>
    simp only [nullable, Bool.or_eq_false_iff, beq_eq_false_iff_ne] at hr
    have keep : ∀ m, m.ahead.length < p.ahead.length → ∀ q ∈ r.ends m,
        q.ahead.length < p.ahead.length := fun m hm q hq =>
      Nat.lt_of_le_of_lt (le hq) hm
    have first : ∀ n, ∀ q ∈ exactly (ends r) (n + 1) p,
        q.ahead.length < p.ahead.length := by
      intro n q hq
      obtain ⟨m, hm, hq⟩ := List.mem_flatMap.mp (mem_distinct hq)
      have hmle : m.ahead.length ≤ p.ahead.length :=
        exactly_all (P := fun m => m.ahead.length ≤ p.ahead.length)
          (fun m hm q hq => Nat.le_trans (le hq) hm) (Nat.le_refl _) m hm
      exact Nat.lt_of_lt_of_le (ih hr.2 hq) hmle
    obtain ⟨lo, rfl⟩ := Nat.exists_eq_succ_of_ne_zero hr.1
    simp only [ends] at h
    split at h
    · exact ahead_lt_of_mem_class_repeated h
    cases hi with
    | none =>
      obtain ⟨m, hm, hq⟩ := List.mem_flatMap.mp (mem_distinct h)
      have hmle : m.ahead.length ≤ p.ahead.length :=
        exactly_all (P := fun m => m.ahead.length ≤ p.ahead.length)
          (fun m hm q hq => Nat.le_trans (le hq) hm) (Nat.le_refl _) m hm
      exact rounds_all (P := fun q => q.ahead.length < p.ahead.length) keep
        (fun q hq => Nat.lt_of_lt_of_le (ih hr.2 hq) hmle) q hq
    | some hi =>
      obtain ⟨m, hm, hq⟩ := List.mem_flatMap.mp (mem_distinct h)
      exact atMost_all (P := fun q => q.ahead.length < p.ahead.length) keep
        (first lo m hm) q hq

theorem matchAt_reaches {r : Regex} {p q : Point} (h : r.matchAt p = some q) :
    ∃ w, p.Reaches w q := exists_reaches_of_mem_ends (List.mem_of_mem_head? h)

theorem find_reaches {r : Regex} {p q : Point} (h : r.find p = some q) :
    ∃ w, p.Reaches w q := by
  fun_induction find r p with
  | case1 p e he => cases h; exact matchAt_reaches he
  | case2 p he m hm ih =>
    obtain ⟨c, hc⟩ := Point.Reaches.of_next? hm
    obtain ⟨w, hw⟩ := ih h
    exact ⟨c :: w, hc.trans hw⟩
  | case3 => simp at h

end SourceTokens.Regex
