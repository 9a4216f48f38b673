/-
# `SourceTokens.Proofs.Literals` — strings with escapes in them

A string literal is a quote, pieces and the quote again, where a piece is a character that
stands for itself or a backslash with whatever comes after it.  The grammar does not read
pieces: it looks for a quote behind a character that is no backslash.  On a literal the two
accounts agree, but for one kind of piece.  No quote of the pieces is found, since each
stands behind its backslash, and the closing quote is, unless the last piece is a backslash
behind a backslash.  Such a piece hides the closing quote, and the string goes on.  What is
found then begins with the hidden quote or later, so it takes at least one character of what
comes behind the literal (`PassesLiteral.runsOn`).
-/
import SourceTokens.Proofs.Prefix

namespace SourceTokens.Literal

open Direct

/-- A piece of what a string holds. -/
inductive Piece (quote : Char)
  /-- A character that stands for itself. -/
  | plain (c : Char) (hquote : c ≠ quote) (hslash : c ≠ '\\')
  /-- A backslash and the character that it escapes, which may be any. -/
  | escaped (c : Char)

def Piece.chars {quote : Char} : Piece quote → List Char
  | plain c _ _ => [c]
  | escaped c => ['\\', c]

/-- What a string holds. -/
def body {quote : Char} (pieces : List (Piece quote)) : List Char :=
  pieces.flatMap Piece.chars

variable {quote : Char}

/-- The cursor behind the opening quote of a literal, with `r` to come after the literal. -/
def opened (passed : List Char) (pieces : List (Piece quote)) (r : List Char) : Scanner :=
  ⟨quote :: passed, body pieces ++ quote :: r⟩

/-- The cursor behind its closing quote. -/
def closed (passed : List Char) (pieces : List (Piece quote)) (r : List Char) : Scanner :=
  ⟨quote :: ((body pieces).reverse ++ quote :: passed), r⟩

/-- What comes of a literal when the rule for its quote is followed. -/
structure PassesLiteral (rule : Rule) (passed : List Char) (pieces : List (Piece quote))
    (r : List Char) : Prop where
  /-- The rule reads the opening quote and passes on from there. -/
  applies : rule.apply ⟨passed, quote :: (body pieces ++ quote :: r)⟩
    = some ([], Rule.passString quote (opened passed pieces r))
  /-- It does not stop before the closing quote has been passed. -/
  reaches : ∃ w, (closed passed pieces r).Moves w
    (Rule.passString quote (opened passed pieces r))
  /-- It stops right there, if the quote is not hidden. -/
  stops : pieces = [] ∨ pieces.getLast? ≠ some (.escaped '\\') →
    Rule.passString quote (opened passed pieces r) = closed passed pieces r
  /-- If it is hidden, some of what comes behind it is passed too, where there is any. -/
  runsOn : pieces.getLast? = some (.escaped '\\') → r ≠ [] →
    ∃ w, w ≠ [] ∧ (closed passed pieces r).Moves w
      (Rule.passString quote (opened passed pieces r))

variable {pieces : List (Piece quote)}

/-! ## Searching for the closing quote -/

theorem body_cons (p : Piece quote) (pieces : List (Piece quote)) :
    body (p :: pieces) = p.chars ++ body pieces := rfl

/-- No piece begins with the quote. -/
theorem head?_body_ne (hquote : quote ≠ '\\') (h : pieces ≠ []) (t : List Char) :
    (body pieces ++ t).head? ≠ some quote := by
  obtain ⟨p, pieces, rfl⟩ := List.exists_cons_of_ne_nil h
  intro hhead
  cases p with
  | plain c hc _ => exact hc (Option.some.inj hhead)
  | escaped c => exact hquote (Option.some.inj hhead).symm

theorem afterQuote?_cons_of_head?_ne (c : Char) {cs : List Char} (h : cs.head? ≠ some quote) :
    afterQuote? quote (c :: cs) = afterQuote? quote cs := by
  rw [afterQuote?_cons]
  exact if_neg fun hfound => h hfound.2

theorem afterQuote?_backslash (quote : Char) (cs : List Char) :
    afterQuote? quote ('\\' :: cs) = afterQuote? quote cs := by
  rw [afterQuote?_cons]
  exact if_neg fun hfound => hfound.1 rfl

/-- The last piece hides the closing quote, or the search finds it. -/
theorem afterQuote?_body (hquote : quote ≠ '\\') (h : pieces ≠ []) (r : List Char) :
    (pieces.getLast? = some (.escaped '\\') ∧
        afterQuote? quote (body pieces ++ quote :: r) = afterQuote? quote (quote :: r))
      ∨ (pieces.getLast? ≠ some (.escaped '\\') ∧
        afterQuote? quote (body pieces ++ quote :: r) = some r) := by
  have hclose : ∀ c, c ≠ '\\' → afterQuote? quote (c :: quote :: r) = some r := by
    intro c hc
    rw [afterQuote?_cons]
    exact if_pos ⟨hc, rfl⟩
  induction pieces with
  | nil => exact absurd rfl h
  | cons p pieces ih =>
    cases pieces with
    | nil =>
      cases p with
      | plain c _ hc =>
        right
        exact ⟨nofun, hclose c hc⟩
      | escaped c =>
        have hread : afterQuote? quote (body [(.escaped c : Piece quote)] ++ quote :: r)
            = afterQuote? quote (c :: quote :: r) := afterQuote?_backslash quote _
        by_cases hc : c = '\\'
        · subst hc
          left
          exact ⟨rfl, hread.trans (afterQuote?_backslash quote _)⟩
        · right
          refine ⟨?_, hread.trans (hclose c hc)⟩
          intro heq
          exact hc (Piece.escaped.inj (Option.some.inj heq))
    | cons p' pieces =>
      have hne := head?_body_ne hquote (List.cons_ne_nil p' pieces) (quote :: r)
      have hskip : afterQuote? quote (body (p :: p' :: pieces) ++ quote :: r)
          = afterQuote? quote (body (p' :: pieces) ++ quote :: r) := by
        rw [body_cons, List.append_assoc]
        cases p with
        | plain c _ _ => exact afterQuote?_cons_of_head?_ne c hne
        | escaped c =>
          exact (afterQuote?_backslash quote _).trans (afterQuote?_cons_of_head?_ne c hne)
      rw [hskip, List.getLast?_cons_cons]
      exact ih (List.cons_ne_nil p' pieces)

/-! ## What follows a literal -/

theorem afterString_body (hquote : quote ≠ '\\')
    (h : pieces = [] ∨ pieces.getLast? ≠ some (.escaped '\\')) (r : List Char) :
    afterString quote (body pieces ++ quote :: r) = r := by
  rw [afterString_eq]
  rcases h with rfl | hshown
  · exact if_pos rfl
  cases pieces with
  | nil => exact if_pos rfl
  | cons p pieces =>
    have hne := List.cons_ne_nil p pieces
    rw [if_neg (head?_body_ne hquote hne _)]
    rcases afterQuote?_body hquote hne r with ⟨hhidden, _⟩ | ⟨_, hfound⟩
    · exact absurd hhidden hshown
    · rw [hfound]
      rfl

/-- A hidden quote is passed together with some of what comes behind it. -/
theorem afterString_body_hidden (hquote : quote ≠ '\\')
    (h : pieces.getLast? = some (.escaped '\\')) (r : List Char) :
    ∃ w, r = w ++ afterString quote (body pieces ++ quote :: r) ∧ (r ≠ [] → w ≠ []) := by
  have hne : pieces ≠ [] := by
    rintro rfl
    cases h
  have hread : afterString quote (body pieces ++ quote :: r)
      = (afterQuote? quote (quote :: r)).getD [] := by
    rw [afterString_eq, if_neg (head?_body_ne hquote hne _)]
    rcases afterQuote?_body hquote hne r with ⟨_, hlater⟩ | ⟨hshown, _⟩
    · rw [hlater]
    · exact absurd h hshown
  rw [hread]
  cases hfound : afterQuote? quote (quote :: r) with
  | none => exact ⟨r, (List.append_nil r).symm, id⟩
  | some u =>
    have hlt : u.length < r.length := length_lt_of_afterQuote? hfound
    have hsuffix : u <:+ r := by
      rcases List.suffix_cons_iff.mp (suffix_of_afterQuote? hfound) with rfl | hsuffix
      · exact absurd hlt (Nat.not_lt_of_le (Nat.le_succ _))
      · exact hsuffix
    obtain ⟨w, rfl⟩ := hsuffix
    refine ⟨w, rfl, ?_⟩
    rintro - rfl
    exact Nat.lt_irrefl _ hlt

/-! ## The rules -/

/-- The cursor goes over the literal and over what it takes of what comes behind it. -/
theorem moves_passString (passed : List Char) {r w : List Char}
    (h : r = w ++ afterString quote (body pieces ++ quote :: r)) :
    (closed passed pieces r).Moves w (Rule.passString quote (opened passed pieces r)) := by
  let t := afterString quote (body pieces ++ quote :: r)
  have hrest : (opened passed pieces r).rest = (body pieces ++ quote :: w) ++ t := by
    rw [List.append_assoc]
    exact congrArg (body pieces ++ quote :: ·) h
  have hpassed : ((opened passed pieces r).upTo t).passed
      = w.reverse ++ (closed passed pieces r).passed := by
    rw [Scanner.upTo, Scanner.before_of_eq hrest, List.reverse_append, List.reverse_cons,
      List.append_assoc, List.append_assoc]
    rfl
  rw [Rule.passString_eq]
  exact ⟨hpassed, h⟩

theorem scan_quote (quote : Char) (passed cs : List Char) :
    Scanner.scan ⟨passed, quote :: cs⟩ (.char quote) = some ([quote], ⟨quote :: passed, cs⟩) := by
  have hread : (Regex.char quote).matchRest? (quote :: cs) = some cs := by
    rw [matchRest?_char]
    exact if_pos rfl
  have hbefore : Scanner.before ⟨passed, quote :: cs⟩ cs = [quote] := Scanner.before_of_eq rfl
  rw [Scanner.scan_eq rfl, hread, Option.map_some, Scanner.upTo, hbefore]
  rfl

/-- A string literal is passed through its closing quote, and no further unless its last piece
is an escaped backslash. -/
theorem passesLiteral {rule : Rule}
    (hrule : (rule, quote) ∈ [(Rule.doubleQuoted, '"'), (Rule.singleQuoted, '\'')])
    (passed : List Char) (pieces : List (Piece quote)) (r : List Char) :
    PassesLiteral rule passed pieces r := by
  simp only [List.mem_cons, Prod.mk.injEq, List.not_mem_nil, or_false] at hrule
  have hquote : quote ≠ '\\' := by
    rcases hrule with ⟨-, rfl⟩ | ⟨-, rfl⟩
    · decide
    · decide
  constructor
  case applies =>
    have hpass := congrArg
      (Option.bind · fun a => some (([] : List Token), Rule.passString quote a.2))
      (scan_quote quote passed (body pieces ++ quote :: r))
    rcases hrule with ⟨rfl, rfl⟩ | ⟨rfl, rfl⟩
    · exact hpass
    · exact hpass
  case reaches =>
    by_cases h : pieces.getLast? = some (.escaped '\\')
    · obtain ⟨w, hw, -⟩ := afterString_body_hidden hquote h r
      exact ⟨w, moves_passString passed hw⟩
    · exact ⟨[], moves_passString passed (afterString_body hquote (.inr h) r).symm⟩
  case stops =>
    intro h
    exact (moves_passString passed (afterString_body hquote h r).symm).eq_of_nil
  case runsOn =>
    intro h hr
    obtain ⟨w, hw, hne⟩ := afterString_body_hidden hquote h r
    exact ⟨w, hne hr, moves_passString passed hw⟩

/-- In `"\\" "x` the closing quote is hidden by the backslash that is escaped before it, and
the string goes on to the quote after the blank. -/
theorem passesLiteral_hidden :
    (Rule.doubleQuoted, '"') ∈ [(Rule.doubleQuoted, '"'), (Rule.singleQuoted, '\'')] ∧
      PassesLiteral .doubleQuoted [] [(.escaped '\\' : Piece '"')] [' ', '"', 'x'] ∧
      (Rule.passString '"' (opened [] [(.escaped '\\' : Piece '"')] [' ', '"', 'x'])).rest
        = ['x'] := by
  refine ⟨by decide, passesLiteral (by decide) _ _ _, ?_⟩
  rw [Rule.passString_eq]
  rfl

end SourceTokens.Literal
