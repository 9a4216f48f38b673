/-
# `SourceTokens.Proofs.Counts` — what counting amounts to

Counting goes through the texts once and keeps a list of those met so far.  That list
is the texts without repetitions, in the order in which they are first met, each with
the number of its occurrences (`Counts.ofList_eq`).

More texts can be counted on top of others.  Those that have been met keep their places,
and the others go to the end (`Counts.ofList_append_eq_foldl`).
-/
import Mathlib
import SourceTokens.Counts

namespace SourceTokens

/-- Leaving out repetitions leaves none. -/
theorem nodup_eraseDups {α : Type} [BEq α] [LawfulBEq α] (as : List α) :
    as.eraseDups.Nodup := by
  match as with
  | [] => exact List.nodup_nil
  | a :: as =>
    rw [List.eraseDups_cons, List.nodup_cons]
    exact ⟨by simp, nodup_eraseDups _⟩
termination_by as.length
decreasing_by exact Nat.lt_succ_of_le (List.length_filter_le _ _)

theorem eraseDups_append_singleton {α : Type} [DecidableEq α] (as : List α) (a : α) :
    (as ++ [a]).eraseDups = if a ∈ as then as.eraseDups else as.eraseDups ++ [a] := by
  rw [List.eraseDups_append]
  split
  case isTrue h => simp [List.removeAll, h]
  case isFalse h => simp [List.removeAll, h, List.eraseDups_cons]

/-- What is met first comes first without repetitions. -/
theorem pairwise_idxOf_eraseDups {α : Type} [DecidableEq α] (as : List α) :
    as.eraseDups.Pairwise fun a b => as.idxOf a < as.idxOf b := by
  induction as using List.reverseRecOn with
  | nil => exact .nil
  | append_singleton as a ih =>
    have hbefore : ∀ {b}, b ∈ as.eraseDups → (as ++ [a]).idxOf b = as.idxOf b := by
      intro b hb
      exact List.idxOf_append_of_mem (List.mem_eraseDups.mp hb)
    have hkept : as.eraseDups.Pairwise fun b c => (as ++ [a]).idxOf b < (as ++ [a]).idxOf c := by
      refine ih.imp_of_mem ?_
      intro b c hb hc hlt
      rwa [hbefore hb, hbefore hc]
    rw [eraseDups_append_singleton]
    split
    case isTrue => exact hkept
    case isFalse h =>
      refine List.pairwise_append.mpr ⟨hkept, List.pairwise_singleton .., ?_⟩
      intro b hb c hc
      obtain rfl := List.mem_singleton.mp hc
      rw [hbefore hb, List.idxOf_append_of_notMem h]
      exact Nat.lt_add_right _ (List.idxOf_lt_length_of_mem (List.mem_eraseDups.mp hb))

namespace Counts

variable {s : String} {ts : List String} {f : String → Nat}

theorem add_of_not_mem (h : s ∉ ts) :
    add s (ts.map fun t => (t, f t)) = (ts.map fun t => (t, f t)) ++ [(s, 1)] := by
  induction ts with
  | nil => rfl
  | cons t ts ih =>
    obtain ⟨hne, hts⟩ := not_or.mp (mt List.mem_cons.mpr h)
    simp only [List.map_cons, add, if_neg (Ne.symm hne), ih hts, List.cons_append]

theorem add_of_mem (hts : ts.Nodup) (h : s ∈ ts) :
    add s (ts.map fun t => (t, f t))
      = ts.map fun t => (t, if t = s then f t + 1 else f t) := by
  induction ts with
  | nil => cases h
  | cons t ts ih =>
    obtain ⟨ht, hts⟩ := List.nodup_cons.mp hts
    by_cases heq : t = s
    · subst heq
      have hrest : ∀ u ∈ ts, u ≠ t := fun u hu hut => ht (hut ▸ hu)
      simp only [List.map_cons, add, if_true]
      congr 1
      refine List.map_congr_left ?_
      intro u hu
      rw [if_neg (hrest u hu)]
    · have hmem : s ∈ ts := List.mem_of_ne_of_mem (Ne.symm heq) h
      simp only [List.map_cons, add, if_neg heq, ih hts hmem]

/-- Counts hold every text once, in the order of first occurrence, with the number of
its occurrences. -/
theorem ofList_eq (ss : List String) :
    ofList ss = ss.eraseDups.map fun s => (s, ss.count s) := by
  induction ss using List.reverseRecOn with
  | nil => rfl
  | append_singleton ss s ih =>
    have hadd : ofList (ss ++ [s]) = add s (ofList ss) := ofList_append ss [s]
    rw [hadd, ih, eraseDups_append_singleton]
    split
    case isTrue h =>
      rw [add_of_mem (nodup_eraseDups ss) (List.mem_eraseDups.mpr h)]
      refine List.map_congr_left ?_
      intro t _
      by_cases ht : t = s
      · simp [ht]
      · simp [ht, Ne.symm ht]
    case isFalse h =>
      rw [add_of_not_mem (mt List.mem_eraseDups.mp h), List.map_append]
      congr 1
      · refine List.map_congr_left ?_
        intro t ht
        have hne : s ≠ t := fun heq => h (heq ▸ List.mem_eraseDups.mp ht)
        simp [hne]
      · simp [List.count_eq_zero_of_not_mem h]

/-- The texts that have been counted. -/
def keys (counts : Counts) : List String := counts.map Prod.fst

/-- One more occurrence: a text that has been counted keeps its place, and another goes to
the end. -/
def bump (counts : Counts) (s : String) : Counts :=
  if s ∈ keys counts then counts.map fun c => (c.1, if c.1 = s then c.2 + 1 else c.2)
  else counts ++ [(s, 1)]

theorem keys_ofList (ss : List String) : keys (ofList ss) = ss.eraseDups := by
  rw [ofList_eq, keys, List.map_map]
  exact List.map_id _

theorem ofList_append_singleton (ss : List String) (s : String) :
    ofList (ss ++ [s]) = bump (ofList ss) s := by
  have hadd : ofList (ss ++ [s]) = add s (ofList ss) := ofList_append ss [s]
  rw [hadd, bump]
  split
  case isTrue h =>
    rw [keys_ofList] at h
    rw [ofList_eq, add_of_mem (nodup_eraseDups ss) h, List.map_map]
    rfl
  case isFalse h =>
    rw [keys_ofList] at h
    rw [ofList_eq, add_of_not_mem h]

/-- What has been counted is kept when more is counted on top of it. -/
theorem ofList_append_eq_foldl (ss ts : List String) :
    ofList (ss ++ ts) = ts.foldl bump (ofList ss) := by
  induction ts generalizing ss with
  | nil => rw [List.append_nil, List.foldl_nil]
  | cons t ts ih => rw [List.append_cons, ih, ofList_append_singleton, List.foldl_cons]

theorem sum_ofList (ss : List String) : ((ofList ss).map Prod.snd).sum = ss.length := by
  have hperm : ss.eraseDups.Perm ss.dedup := by
    refine (List.perm_ext_iff_of_nodup (nodup_eraseDups ss) ss.nodup_dedup).mpr ?_
    intro s
    rw [List.mem_eraseDups, List.mem_dedup]
  rw [ofList_eq, List.map_map]
  calc (ss.eraseDups.map fun s => ss.count s).sum
    _ = (ss.dedup.map fun s => ss.count s).sum := (hperm.map _).sum_eq
    _ = ss.length := List.sum_map_count_dedup_eq_length ss

/-- Counting.  Every text is counted once, and nothing else is; the texts are in the order
in which they first occur; each is with the number of its occurrences, and these add up to
the number of all texts.  More texts are counted on top of others one after the other. -/
theorem ofList_counts (ss : List String) :
    (∀ s, (keys (ofList ss)).count s = if s ∈ ss then 1 else 0) ∧
    (keys (ofList ss)).Pairwise (fun s t => ss.idxOf s < ss.idxOf t) ∧
    ofList ss = ((keys (ofList ss)).map fun s => (s, ss.count s)) ∧
    ((ofList ss).map Prod.snd).sum = ss.length ∧
    ∀ ts, ofList (ss ++ ts) = ts.foldl bump (ofList ss) := by
  rw [keys_ofList]
  refine ⟨?_, pairwise_idxOf_eraseDups ss, ofList_eq ss, sum_ofList ss,
    ofList_append_eq_foldl ss⟩
  intro s
  rw [(nodup_eraseDups ss).count]
  simp only [List.mem_eraseDups]

end Counts

end SourceTokens
