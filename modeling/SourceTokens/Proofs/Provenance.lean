/-
# `SourceTokens.Proofs.Provenance` — where tokens come from

Every token is read off a stretch of the source, and the stretches follow one another in
the order of the tokens without sharing a character.  Most tokens are the text of their
stretch; the name of a tag has its closing bracket added, and an interpreter is a part
of its line with a marker before it (`Token.ReadFrom`).

`Traced cs ts` is what is proved step by step: the tokens `ts` are read off stretches of
`cs`, one after the other.  It goes through the loop inside a tag and through the main
loop by putting texts, and their tokens, one after the other.
-/
import SourceTokens.Proofs.Interpreter
import SourceTokens.Proofs.Loop
import SourceTokens.Proofs.Yield

namespace SourceTokens

open Direct

/-- The text `w` that a token is read off. -/
def Token.ReadFrom (token : Token) (w : List Char) : Prop :=
  match token with
  | .tag _ => token.text.toList = w ++ ['>'] ∧ w.head? = some '<'
  | .interpreter _ =>
    ∃ n, token.text.toList = interpreterMarker.toList ++ n ∧ n <:+: w ∧ "#!".toList <+: w ∧
      '\n' ∉ w
  | _ => token.text.toList = w

/-- Tokens read off stretches of a text, one after the other. -/
inductive Traced : List Char → List Token → Prop
  | done : Traced [] []
  | skip (w : List Char) {cs : List Char} {ts : List Token} (h : Traced cs ts) :
      Traced (w ++ cs) ts
  | token {w cs : List Char} {t : Token} {ts : List Token} (hw : w ≠ [])
      (ht : t.ReadFrom w) (h : Traced cs ts) : Traced (w ++ cs) (t :: ts)

namespace Traced

variable {x y w cs : List Char} {ts us : List Token} {t : Token}

theorem append (hx : Traced x ts) (hy : Traced y us) : Traced (x ++ y) (ts ++ us) := by
  induction hx with
  | done => exact hy
  | skip w _ ih => rw [List.append_assoc]; exact .skip w ih
  | token hw ht _ ih => rw [List.append_assoc]; exact .token hw ht ih

theorem nothing (cs : List Char) : Traced cs [] := by
  rw [← List.append_nil cs]
  exact .skip cs .done

theorem one (hw : w ≠ []) (ht : t.ReadFrom w) : Traced w [t] := by
  rw [← List.append_nil w]
  exact .token hw ht .done

end Traced

/-! ## Step by step -/

namespace Direct

theorem traced_of_tagStep {cs t : List Char} {o : Option Token} (h : TagStep cs o t) :
    ∃ w, cs = w ++ t ∧ Traced w o.toList := by
  cases h with
  | @name name _ hne _ =>
    have htag : (Token.tag (.ofList ('<' :: name))).ReadFrom ('<' :: name) := by
      refine ⟨?_, rfl⟩
      rw [Token.text, String.toList_append, String.toList_ofList]
      rfl
    exact ⟨'<' :: name, rfl, .one (List.cons_ne_nil '<' name) htag⟩
  | skip h =>
    obtain ⟨w, rfl⟩ := h
    exact ⟨w, rfl, .nothing w⟩
  | @assignment word _ _ _ _ h =>
    obtain ⟨v, rfl⟩ := h
    have hassignment : (Token.assignment (.ofList (word ++ ['=']))).ReadFrom (word ++ ['=']) :=
      String.toList_ofList
    refine ⟨word ++ ['='] ++ v, (List.append_assoc _ _ _).symm, ?_⟩
    exact (Traced.one (List.append_ne_nil_of_right_ne_nil word (List.cons_ne_nil _ _))
      hassignment).append (.nothing v)
  | @identifier word _ hne _ =>
    have hidentifier : (Token.identifier (.ofList word)).ReadFrom word := String.toList_ofList
    exact ⟨word, rfl, .one hne hidentifier⟩

theorem traced_tagTokens (cs : List Char) : Traced cs (tagTokens cs) := by
  fun_induction tagTokens cs with
  | case1 => exact .done
  | case2 cs _ _ ih =>
    obtain ⟨w, hw, htrace⟩ := traced_of_tagStep (tagStep_spec cs)
    have := htrace.append ih
    rwa [← hw] at this

theorem traced_of_yields {rule : Rule} {w : List Char} {ts : List Token}
    (h : Yields rule w ts) : Traced w ts := by
  cases h with
  | nothing => exact .nothing w
  | @interpreter _ n hmark hline hn =>
    have hne : w ≠ [] := by
      rintro rfl
      exact absurd hmark (by decide)
    have hname : (Token.interpreter n).ReadFrom w :=
      ⟨n.toList, String.toList_append, (Interpreter.of_ofLine? hn).1, hmark, hline⟩
    exact .one hne hname
  | tag => exact traced_tagTokens _
  | @punctuation c _ =>
    have hbracket : (Token.punctuation (.ofList [c])).ReadFrom [c] := String.toList_ofList
    exact .one (List.cons_ne_nil c []) hbracket
  | regular hne _ =>
    have hregular : (Token.regular (.ofList w)).ReadFrom w := String.toList_ofList
    exact .one hne hregular
  | @operator o ho =>
    have hne : ∀ o ∈ operators, o.toList ≠ [] := by decide
    have hoperator : (Token.operator o).ReadFrom o.toList := rfl
    exact .one (hne o ho) hoperator

theorem traced_step (lineStart : Bool) (cs : List Char) :
    ∃ w, cs = w ++ (step lineStart cs).2 ∧ Traced w (step lineStart cs).1 := by
  cases h : taken? lineStart cs with
  | none =>
    rw [step_of_taken?_eq_none h]
    obtain ⟨w, hw⟩ := List.tail_suffix cs
    exact ⟨w, hw.symm, .nothing w⟩
  | some rule =>
    obtain ⟨w, hw, hyields⟩ := yields_of_read (read_of_taken? h)
    exact ⟨w, hw, traced_of_yields hyields⟩

theorem traced_tokensFrom (lineStart : Bool) (cs : List Char) :
    Traced cs (tokensFrom lineStart cs) := by
  fun_induction tokensFrom lineStart cs with
  | case1 => exact .done
  | case2 lineStart cs _ t _ ih =>
    obtain ⟨w, hw, htrace⟩ := traced_step lineStart cs
    have := htrace.append ih
    rwa [← hw] at this

end Direct

/-! ## Stretches -/

/-- A stretch of a text, from one offset to another, that is not empty. -/
structure Span (text : List Char) where
  start : Nat
  stop : Nat
  lt : start < stop
  le : stop ≤ text.length

namespace Span

variable {text : List Char}

/-- The characters of a stretch. -/
def chars (s : Span text) : List Char := (text.drop s.start).take (s.stop - s.start)

/-- The stretch before all others, if they are moved. -/
def ofPrefix {w : List Char} (hw : w ≠ []) (cs : List Char) : Span (w ++ cs) where
  start := 0
  stop := w.length
  lt := List.length_pos_iff.mpr hw
  le := by rw [List.length_append]; exact Nat.le_add_right _ _

/-- The same stretch with a text before it. -/
def shift (w : List Char) (s : Span text) : Span (w ++ text) where
  start := w.length + s.start
  stop := w.length + s.stop
  lt := Nat.add_lt_add_left s.lt _
  le := by rw [List.length_append]; exact Nat.add_le_add_left s.le _

@[simp] theorem chars_ofPrefix {w : List Char} (hw : w ≠ []) (cs : List Char) :
    (ofPrefix hw cs).chars = w := by
  show ((w ++ cs).drop 0).take (w.length - 0) = w
  rw [List.drop_zero, Nat.sub_zero, List.take_left]

@[simp] theorem chars_shift (w : List Char) (s : Span text) : (s.shift w).chars = s.chars := by
  show ((w ++ text).drop (w.length + s.start)).take (w.length + s.stop - (w.length + s.start))
    = _
  rw [List.drop_length_add_append, Nat.add_sub_add_left]
  rfl

end Span

/-- Tokens beside the stretches of a text that they are read off.  The stretches come in
the order of the tokens and share no character. -/
structure Placed {text : List Char} (found : List (Token × Span text)) : Prop where
  read : ∀ f ∈ found, f.1.ReadFrom f.2.chars
  order : found.Pairwise fun f g => f.2.stop ≤ g.2.start

namespace Placed

variable {cs : List Char} {found : List (Token × Span cs)}

theorem shift (w : List Char) (h : Placed found) :
    Placed (found.map (Prod.map id (Span.shift w))) where
  read := by
    intro f hf
    obtain ⟨g, hg, rfl⟩ := List.mem_map.mp hf
    show g.1.ReadFrom (g.2.shift w).chars
    rw [Span.chars_shift]
    exact h.read g hg
  order := by
    refine List.pairwise_map.mpr (h.order.imp ?_)
    intro f g hle
    exact Nat.add_le_add_left hle _

theorem cons {w : List Char} {t : Token} (hw : w ≠ []) (ht : t.ReadFrom w) (h : Placed found) :
    Placed ((t, Span.ofPrefix hw cs) :: found.map (Prod.map id (Span.shift w))) where
  read := by
    refine List.forall_mem_cons.mpr ⟨?_, (h.shift w).read⟩
    show t.ReadFrom (Span.ofPrefix hw cs).chars
    rwa [Span.chars_ofPrefix]
  order := by
    refine List.pairwise_cons.mpr ⟨?_, (h.shift w).order⟩
    intro f hf
    obtain ⟨g, _, rfl⟩ := List.mem_map.mp hf
    exact Nat.le_add_right _ _

end Placed

theorem Traced.exists_placed {cs : List Char} {ts : List Token} (h : Traced cs ts) :
    ∃ found : List (Token × Span cs), found.map (·.1) = ts ∧ Placed found := by
  induction h with
  | done => exact ⟨[], rfl, List.forall_mem_nil _, .nil⟩
  | skip w _ ih =>
    obtain ⟨found, rfl, hplaced⟩ := ih
    exact ⟨_, List.map_map, hplaced.shift w⟩
  | @token w _ t _ hw ht _ ih =>
    obtain ⟨found, rfl, hplaced⟩ := ih
    refine ⟨_, ?_, hplaced.cons hw ht⟩
    exact congrArg (t :: ·) List.map_map

theorem Traced.length_le {cs : List Char} {ts : List Token} (h : Traced cs ts) :
    ts.length ≤ cs.length := by
  induction h with
  | done => exact Nat.le_refl _
  | skip w _ ih => rw [List.length_append]; omega
  | token hw _ _ ih =>
    have := List.length_pos_iff.mpr hw
    rw [List.length_append, List.length_cons]
    omega

/-- Every token is read off a stretch of the text that is not empty.  The stretches come
in the order of the tokens and share no character, so there are no more tokens than
characters. -/
theorem Source.exists_provenance (text : String) :
    (∃ found : List (Token × Span text.toList),
      found.map (·.1) = tokens text ∧ Placed found) ∧
    (tokens text).length ≤ text.length := by
  have htrace := traced_tokensFrom true text.toList
  rw [← tokens_eq_tokensFrom] at htrace
  exact ⟨htrace.exists_placed, htrace.length_le⟩

end SourceTokens
