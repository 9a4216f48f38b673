/-
# `SourceTokens.Proofs.Regex.Distinct` — dropping later arrivals loses nothing

`ends` keeps a place only the first time it comes up.  Whoever walks the list for
the first place with which something can be done finds the same thing with or
without the later arrivals, provided that two places of one index are alike:

    (distinct ps).findSome? k = ps.findSome? k

The proof carries one invariant of `Found`: the set of indices is that of the
places found.
-/
import SourceTokens.Regex.Progress

namespace SourceTokens.Regex

/-! ## The set of indices -/

/-- `f.Faithful`: the indices seen are those of the places found. -/
def Found.Faithful (f : Found) : Prop :=
  ∀ i, f.seen.testBit i = true ↔ ∃ q ∈ f.latestFirst, q.index = i

theorem Found.faithful_empty : Found.empty.Faithful := by
  intro i
  simp [Found.empty]

theorem Found.Faithful.has_iff {f : Found} (hf : f.Faithful) {p : Point} :
    f.has p = true ↔ ∃ q ∈ f.latestFirst, q.index = p.index :=
  hf p.index

theorem Found.Faithful.insert {f : Found} (hf : f.Faithful) (p : Point) :
    (f.insert p).Faithful := by
  intro i
  unfold Found.insert
  split
  case isTrue => exact hf i
  case isFalse =>
    rw [Nat.testBit_or, Nat.one_shiftLeft, Nat.testBit_two_pow]
    simp only [Bool.or_eq_true, decide_eq_true_eq, hf i, List.mem_cons]
    constructor
    · rintro (⟨q, hq, hi⟩ | hi)
      · exact ⟨q, .inr hq, hi⟩
      · exact ⟨p, .inl rfl, hi⟩
    · rintro ⟨q, rfl | hq, hi⟩
      · exact .inr hi
      · exact .inl ⟨q, hq, hi⟩

/-! ## Walking the places found -/

variable {α : Type}

/-- A place whose like has been passed can be left out. -/
theorem findSome?_append_cons_of_mem {k : Point → Option α} {l m : List Point}
    {p q : Point} (hq : q ∈ l) (hk : k q = k p) :
    (l ++ p :: m).findSome? k = (l ++ m).findSome? k := by
  rw [List.findSome?_append, List.findSome?_append, List.findSome?_cons]
  cases hp : k p with
  | none => rfl
  | some a =>
    have hl : (l.findSome? k).isSome := by
      rw [List.findSome?_isSome_iff]
      exact ⟨q, hq, by rw [hk, hp]; rfl⟩
    obtain ⟨b, hb⟩ := Option.isSome_iff_exists.mp hl
    rw [hb]
    rfl

/-- Places of one index are alike to `k`. -/
def Alike (k : Point → Option α) (ps : List Point) : Prop :=
  ∀ p ∈ ps, ∀ q ∈ ps, p.index = q.index → k p = k q

theorem Alike.mono {k : Point → Option α} {ps qs : List Point} (h : Alike k ps)
    (hqs : qs ⊆ ps) : Alike k qs :=
  fun p hp q hq => h p (hqs hp) q (hqs hq)

theorem findSome?_foldl_insert {k : Point → Option α} (ps : List Point) {f : Found}
    (hf : f.Faithful) (hk : Alike k (f.toList ++ ps)) :
    (ps.foldl Found.insert f).toList.findSome? k = (f.toList ++ ps).findSome? k := by
  induction ps generalizing f with
  | nil => rw [List.append_nil]; rfl
  | cons p ps ih =>
    cases hp : f.has p with
    | true =>
      obtain ⟨q, hq, hi⟩ := hf.has_iff.mp hp
      have hq' : q ∈ f.toList := List.mem_reverse.mpr hq
      have hinsert : f.insert p = f := by simp [Found.insert, hp]
      have hqp : k q = k p := hk q (by simp [hq']) p (by simp) hi
      rw [List.foldl_cons, hinsert, findSome?_append_cons_of_mem hq' hqp]
      refine ih hf (hk.mono fun a ha => ?_)
      rcases List.mem_append.mp ha with h | h
      · exact List.mem_append_left _ h
      · exact List.mem_append_right _ (.tail _ h)
    | false =>
      have hlist : (f.insert p).toList = f.toList ++ [p] := by
        simp [Found.insert, hp, Found.toList]
      rw [List.foldl_cons, ih (hf.insert p) (by rwa [hlist, List.append_assoc]), hlist,
        List.append_assoc]
      rfl

theorem findSome?_distinct {k : Point → Option α} {ps : List Point}
    (hk : Alike k ps) : (distinct ps).findSome? k = ps.findSome? k := by
  unfold distinct
  split
  case h_1 => rfl
  case h_2 => rfl
  case h_3 => exact findSome?_foldl_insert ps Found.faithful_empty hk

end SourceTokens.Regex
