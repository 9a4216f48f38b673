/-
# `SourceTokens.Proofs.Regex.Reading` — what a pattern text is read as

What has been put together of a pattern does not depend on the groups around it
(`Assembly.foldlM_inside`), and the pieces of a pattern leave no group open.  So if a pattern
stands in the wrapping `^(?:…)`, the brackets of the wrapping close what they open, and what
comes out is the pattern held to the start of the text (`ofPattern_wrapped`).  If the pattern
ends in a comment, the last bracket is lost in it and the group stays open
(`ofPattern_wrapped_of_comment`).

No repetition of a pattern demands more rounds than it allows (`wellFormed_of_ofPattern`),
which is what the account of matching in `Regex.Matches` asks of an expression.
-/
import SourceTokens.Pattern
import SourceTokens.Proofs.Regex.Matches
import SourceTokens.Proofs.Regex.Pieces

namespace SourceTokens.Regex

variable {data : CharacterData} {s : List Char} {ps : List Piece} {r : Regex}

/-! ## Groups around a pattern -/

/-- The assembly with more groups open around it. -/
def Assembly.inside (a : Assembly) (gs : List Group) : Assembly :=
  { a with around := a.around ++ gs }

theorem Assembly.take_inside {a b : Assembly} {p : Piece} (h : a.take data p = .ok b)
    (gs : List Group) : (a.inside gs).take data p = .ok (b.inside gs) := by
  obtain ⟨around, inner, classes, names⟩ := a
  cases p with
  | atom x =>
    obtain ⟨r, hr, h⟩ := bind_eq_ok_iff.mp h
    cases h
    show inner.flags.atom data x >>= _ = _
    rw [hr]
    rfl
  | opening name d =>
    obtain ⟨ns, hns, h⟩ := bind_eq_ok_iff.mp h
    cases h
    show Assembly.declare (inside ⟨around, inner, classes, names⟩ gs) name >>= _ = _
    have hns' : Assembly.declare (inside ⟨around, inner, classes, names⟩ gs) name = .ok ns := by
      cases name <;> exact hns
    rw [hns']
    rfl
  | closing =>
    cases around with
    | nil => cases h
    | cons g around =>
      cases h
      rfl
  | bar =>
    cases h
    rfl
  | times lo hi lazy =>
    obtain ⟨g, hg, h⟩ := bind_eq_ok_iff.mp h
    cases h
    show inner.repeated lo hi lazy >>= _ = _
    rw [hg]
    rfl
  | flags d =>
    cases h
    rfl
  | classOpening negated cs =>
    cases h
    rfl
  | classItem i =>
    obtain ⟨c, hc, h⟩ := bind_eq_ok_iff.mp h
    cases h
    show inner.flags.classItem data i >>= _ = _
    rw [hc]
    cases classes <;> rfl
  | classOperator o =>
    cases classes with
    | nil => cases h
    | cons k classes =>
      cases h
      rfl
  | classClosing =>
    cases classes with
    | nil => cases h
    | cons k classes =>
      obtain ⟨c, hc, h⟩ := bind_eq_ok_iff.mp h
      cases h
      show k.close data inner.flags >>= _ = _
      rw [hc]
      cases classes <;> rfl

theorem Assembly.foldlM_inside {a b : Assembly} (h : ps.foldlM (take data) a = .ok b)
    (gs : List Group) : ps.foldlM (take data) (a.inside gs) = .ok (b.inside gs) := by
  induction ps generalizing a with
  | nil =>
    cases h
    rfl
  | cons p ps ih =>
    rw [List.foldlM_cons] at h ⊢
    obtain ⟨c, hc, h⟩ := bind_eq_ok_iff.mp h
    rw [take_inside hc]
    exact ih h

theorem exists_assembly (h : assemble data ps = .ok r) :
    ∃ a : Assembly, ps.foldlM (Assembly.take data) .empty = .ok a ∧ a.around = [] ∧
      a.inner.close = r := by
  obtain ⟨a, ha, hfinish⟩ := bind_eq_ok_iff.mp h
  obtain ⟨around, inner, classes, names⟩ := a
  cases around with
  | cons g around => cases hfinish
  | nil =>
    cases hfinish
    exact ⟨_, ha, rfl, rfl⟩

/-! ## In the wrapping -/

/-- The wrapping puts the anchor and the bracket of a group before the pieces of the text, and
the bracket that closes the group behind them, unless it is in a comment. -/
theorem pieces_wrapped {remark : Bool} (h : pieces .start s = .ok (ps, remark)) :
    pieces .start (Pattern.wrapped s)
      = .ok (.atom (.look .lineStart) :: .opening none .none ::
          (if remark then ps else ps ++ [.closing]), remark) := by
  have hclosing := pieces_append_closing h
  rw [← pieces_within .start 1] at hclosing
  show pieces .start ('^' :: '(' :: '?' :: ':' :: (s ++ [')'])) = _
  rw [pieces_of_skip_cons rfl]
  show pieces .start ('(' :: '?' :: ':' :: (s ++ [')'])) >>= _ = _
  rw [pieces_of_skip_cons rfl]
  show (pieces (Mode.start.within 1) (s ++ [')']) >>= _) >>= _ = _
  rw [hclosing]
  rfl

/-- What stands before the group of the wrapping. -/
def Group.wrapping : Group := ⟨[], [some (.assert .textStart)], .default⟩

theorem Assembly.foldlM_wrapping {a : Assembly} (h : ps.foldlM (take data) .empty = .ok a) :
    (.atom (.look .lineStart) :: .opening none .none :: ps).foldlM (take data) .empty
      = .ok (a.inside [.wrapping]) := by
  have hinside := foldlM_inside h [.wrapping]
  show ps.foldlM (take data) ⟨[.wrapping], .empty (Flags.default.change .none), [], []⟩ = _
  rw [Flags.change_none]
  exact hinside

/-- Wrapping a pattern holds it to the start of the text and does nothing else. -/
theorem ofPattern_wrapped (h : ofPattern data s = .ok r) (hs : ¬ EndsInComment s) :
    ofPattern data (Pattern.wrapped s) = .ok (anchored r) := by
  obtain ⟨⟨ps, remark⟩, hps, h⟩ := bind_eq_ok_iff.mp h
  cases remark with
  | true => exact absurd ⟨ps, hps⟩ hs
  | false =>
    obtain ⟨⟨around, inner, classes, names⟩, ha, rfl, rfl⟩ := exists_assembly h
    show pieces .start _ >>= _ = _
    rw [pieces_wrapped hps]
    show ((.atom (.look .lineStart) :: .opening none .none :: (ps ++ [.closing])).foldlM
      (Assembly.take data) .empty >>= Assembly.finish) = _
    rw [← List.cons_append, ← List.cons_append, List.foldlM_append, Assembly.foldlM_wrapping ha]
    rfl

/-- The bracket that would close the wrapping is in the comment. -/
theorem ofPattern_wrapped_of_comment (h : ofPattern data s = .ok r) (hs : EndsInComment s) :
    ofPattern data (Pattern.wrapped s) = .error .unclosedGroup := by
  obtain ⟨ps, hps⟩ := hs
  obtain ⟨_, hps', h⟩ := bind_eq_ok_iff.mp h
  cases hps.symm.trans hps'
  obtain ⟨⟨around, inner, classes, names⟩, ha, rfl, -⟩ := exists_assembly h
  show pieces .start _ >>= _ = _
  rw [pieces_wrapped hps]
  show ((.atom (.look .lineStart) :: .opening none .none :: ps).foldlM
    (Assembly.take data) .empty >>= Assembly.finish) = _
  rw [Assembly.foldlM_wrapping ha]
  rfl

/-! ## What is read is well formed -/

def Group.WellFormed (g : Group) : Prop :=
  (∀ r ∈ g.branches, r.WellFormed) ∧ ∀ r, some r ∈ g.parts → r.WellFormed

def Assembly.WellFormed (a : Assembly) : Prop :=
  a.inner.WellFormed ∧ ∀ g ∈ a.around, g.WellFormed

theorem wellFormed_foldl {op : Regex → Regex → Regex} {r : Regex} {rs : List Regex}
    (hop : ∀ r s, r.WellFormed → s.WellFormed → (op r s).WellFormed) (hr : r.WellFormed)
    (h : ∀ s ∈ rs, s.WellFormed) : (rs.foldl op r).WellFormed := by
  induction rs generalizing r with
  | nil => exact hr
  | cons s rs ih =>
    exact ih (hop r s hr (h s (.head _))) fun s' hs => h s' (.tail _ hs)

theorem wellFormed_atom {fs : Flags} {x : Atom} (h : fs.atom data x = .ok r) : r.WellFormed := by
  cases x with
  | literal c octet =>
    rw [Flags.atom] at h
    split at h
    case isTrue => cases h
    case isFalse =>
      cases h
      exact trivial
  | look l =>
    cases h
    exact trivial
  | _ =>
    obtain ⟨c, -, h⟩ := bind_eq_ok_iff.mp h
    cases h
    exact trivial

namespace Group.WellFormed

variable {g : Group}

theorem endBranch (h : g.WellFormed) : g.endBranch.WellFormed := by
  have hconcat : ∀ rs : List Regex, (∀ r ∈ rs, r.WellFormed) → (concat rs).WellFormed := by
    intro rs hrs
    cases rs with
    | nil => exact trivial
    | cons r rs =>
      exact wellFormed_foldl (fun _ _ => And.intro) (hrs r (.head _))
        fun s hs => hrs s (.tail _ hs)
  have hparts : ∀ r ∈ g.parts.reverse.filterMap id, r.WellFormed := by
    intro r hr
    obtain ⟨o, ho, rfl⟩ := List.mem_filterMap.mp hr
    exact h.2 r (List.mem_reverse.mp ho)
  refine ⟨?_, nofun⟩
  intro r hr
  rcases List.mem_cons.mp hr with rfl | hr
  · exact hconcat _ hparts
  · exact h.1 r hr

theorem close (h : g.WellFormed) : g.close.WellFormed := by
  have hbranches : ∀ r ∈ g.endBranch.branches.reverse, r.WellFormed :=
    fun r hr => h.endBranch.1 r (List.mem_reverse.mp hr)
  unfold Group.close
  cases hrs : g.endBranch.branches.reverse with
  | nil => exact trivial
  | cons r rs =>
    rw [hrs] at hbranches
    exact wellFormed_foldl (fun _ _ => And.intro) (hbranches r (.head _))
      fun s hs => hbranches s (.tail _ hs)

theorem add (h : g.WellFormed) (hr : r.WellFormed) : (g.add r).WellFormed := by
  refine ⟨h.1, ?_⟩
  intro s hs
  rcases List.mem_cons.mp hs with heq | hs
  · exact Option.some.inj heq ▸ hr
  · exact h.2 s hs

theorem repeated {lo : Nat} {hi : Option Nat} {lazy : Bool} {g' : Group} (h : g.WellFormed)
    (hg : g.repeated lo hi lazy = .ok g') : g'.WellFormed := by
  obtain ⟨branches, parts, flags⟩ := g
  rw [Group.repeated.eq_def] at hg
  split at hg
  case h_2 => cases hg
  case h_1 r parts hparts =>
    split at hg
    case isTrue => cases hg
    case isFalse hle =>
      cases hg
      refine ⟨h.1, ?_⟩
      intro s hs
      rcases List.mem_cons.mp hs with heq | hs
      · cases heq
        refine ⟨h.2 r (hparts ▸ .head _), ?_⟩
        rintro n rfl
        exact Nat.le_of_not_lt fun hlt => hle (decide_eq_true hlt)
      · exact h.2 s (hparts ▸ .tail _ hs)

end Group.WellFormed

namespace Assembly.WellFormed

variable {a b : Assembly}

theorem add (ha : a.WellFormed) (hr : r.WellFormed) : (a.add r).WellFormed :=
  ⟨ha.1.add hr, ha.2⟩

theorem addClass (ha : a.WellFormed) (c : Class) : (a.addClass c).WellFormed := by
  unfold Assembly.addClass
  split
  case h_1 => exact ha.add trivial
  case h_2 => exact ha

theorem take {p : Piece} (ha : a.WellFormed) (h : a.take data p = .ok b) : b.WellFormed := by
  cases p with
  | atom x =>
    obtain ⟨r, hr, h⟩ := bind_eq_ok_iff.mp h
    cases h
    exact ha.add (wellFormed_atom hr)
  | opening name d =>
    obtain ⟨ns, -, h⟩ := bind_eq_ok_iff.mp h
    cases h
    refine ⟨⟨nofun, nofun⟩, ?_⟩
    intro g hg
    rcases List.mem_cons.mp hg with rfl | hg
    · exact ha.1
    · exact ha.2 g hg
  | closing =>
    obtain ⟨around, inner, classes, names⟩ := a
    cases around with
    | nil => cases h
    | cons g around =>
      cases h
      exact ⟨(ha.2 g (.head _)).add ha.1.close, fun g' hg => ha.2 g' (.tail _ hg)⟩
  | bar =>
    cases h
    exact ⟨ha.1.endBranch, ha.2⟩
  | times lo hi lazy =>
    obtain ⟨g, hg, h⟩ := bind_eq_ok_iff.mp h
    cases h
    exact ⟨ha.1.repeated hg, ha.2⟩
  | flags d =>
    cases h
    refine ⟨⟨ha.1.1, ?_⟩, ha.2⟩
    intro s hs
    rcases List.mem_cons.mp hs with heq | hs
    · cases heq
    · exact ha.1.2 s hs
  | classOpening negated cs =>
    cases h
    exact ha
  | classItem i =>
    obtain ⟨c, -, h⟩ := bind_eq_ok_iff.mp h
    cases h
    exact ha.addClass c
  | classOperator o =>
    obtain ⟨around, inner, classes, names⟩ := a
    cases classes with
    | nil => cases h
    | cons k classes =>
      cases h
      exact ha
  | classClosing =>
    obtain ⟨around, inner, classes, names⟩ := a
    cases classes with
    | nil => cases h
    | cons k classes =>
      obtain ⟨c, -, h⟩ := bind_eq_ok_iff.mp h
      cases h
      have hclosed : Assembly.WellFormed ⟨around, inner, classes, names⟩ := ha
      exact hclosed.addClass c

theorem foldlM (ha : a.WellFormed) (h : ps.foldlM (Assembly.take data) a = .ok b) :
    b.WellFormed := by
  induction ps generalizing a with
  | nil =>
    cases h
    exact ha
  | cons p ps ih =>
    rw [List.foldlM_cons] at h
    obtain ⟨c, hc, h⟩ := bind_eq_ok_iff.mp h
    exact ih (ha.take hc) h

end Assembly.WellFormed

/-- No repetition of a pattern demands more rounds than it allows. -/
theorem wellFormed_of_ofPattern (h : ofPattern data s = .ok r) : r.WellFormed := by
  obtain ⟨⟨ps, remark⟩, -, h⟩ := bind_eq_ok_iff.mp h
  obtain ⟨a, ha, -, rfl⟩ := exists_assembly h
  have hall : a.WellFormed :=
    Assembly.WellFormed.foldlM (a := .empty) ⟨⟨nofun, nofun⟩, nofun⟩ ha
  exact hall.1.close

end SourceTokens.Regex
