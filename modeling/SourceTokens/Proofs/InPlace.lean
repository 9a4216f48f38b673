/-
# `SourceTokens.Proofs.InPlace` — rules that act as they go

A rule gives its tokens and the place to go on, or nothing.  Here the rules are written
once more, as actions on one cursor and one list of tokens: every action takes effect at
once, so that a rule may move the cursor, or add a token, and only then find that it does
not apply.  None does.  `Rule.attempt_eq` says that the two accounts are the same,

    rule.attempt w = match rule.apply w.cursor with
      | none => (false, w)
      | some (ts, s) => (true, ⟨s, w.found ++ ts⟩)

and from this it follows that the rules can be tried one after the other on the same
cursor (`Source.round_eq`): those that refuse have left no trace for the one that applies.
-/
import SourceTokens.Proofs.Agreement

namespace SourceTokens

/-- A cursor at work, and the tokens found so far. -/
structure Work where
  cursor : Scanner
  found : Array Token
  deriving DecidableEq, Repr

/-- Work on a text that has not begun. -/
def Work.ofText (text : List Char) : Work := ⟨.ofText text, #[]⟩

/-- An action on the cursor and the tokens found so far. -/
abbrev Action (α : Type) := StateM Work α

namespace Action

/-- Match at the cursor and pass what matched. -/
def scan (r : Regex) : Action (Option (List Char)) := fun w =>
  match w.cursor.scan r with
  | some (cs, s) => (some cs, { w with cursor := s })
  | none => (none, w)

/-- Search from the cursor on, and pass everything through the end of the match. -/
def skipUntil (r : Regex) : Action (Option Nat) := fun w =>
  match w.cursor.skipUntil r with
  | some (n, s) => (some n, { w with cursor := s })
  | none => (none, w)

def getChar : Action (Option Char) := fun w =>
  match w.cursor.getChar with
  | some (c, s) => (some c, { w with cursor := s })
  | none => (none, w)

def peek (n : Nat) : Action (List Char) := fun w => (w.cursor.peek n, w)

def atLineStart : Action Bool := fun w => (w.cursor.atLineStart, w)

def terminate : Action Unit := fun w => ((), { w with cursor := w.cursor.terminate })

/-- Keep a token. -/
def push (t : Token) : Action Unit := fun w => ((), { w with found := w.found.push t })

/-- Keep the tokens of a tag. -/
def pushTag (span : List Char) : Action Unit := fun w =>
  ((), { w with found := Tag.collect (.ofText span) w.found })

/-- Past the next match, or to the end of the text. -/
def skipOrTerminate (r : Regex) : Action Unit := do
  if (← skipUntil r).isNone then terminate

/-- Past a string whose opening quote has been read. -/
def skipString (quote : Char) : Action Unit := do
  if (← peek 1) = [quote] then discard getChar
  else skipOrTerminate (Lexicon.stringEnd quote)

/-- Keep what matches at the cursor as a token. -/
def emit (r : Regex) (token : String → Token) : Action Bool := do
  match ← scan r with
  | none => return false
  | some t =>
    push (token (.ofList t))
    return true

end Action

open SourceTokens.Action

/-- Try a rule at the cursor.  The answer is whether it applies. -/
def Rule.attempt : Rule → Action Bool
  | interpreterLine => do
    let some line ← scan Lexicon.interpreterLine | return false
    if let some name := Interpreter.ofLine? line then push (.interpreter name)
    return true
  | lineComment => do
    if !(← atLineStart) then return false
    if (← scan Lexicon.lineComment).isNone then return false
    discard (skipUntil Lexicon.lineEnd)
    return true
  | blockComment => do
    let some opening ← scan Lexicon.blockOpening | return false
    match Lexicon.blockClosing? (.ofList opening) with
    | some closing => skipOrTerminate closing
    | none => terminate
    return true
  | doubleQuoted => do
    if (← scan (.char '"')).isNone then return false
    skipString '"'
    return true
  | singleQuoted => do
    if (← scan (.char '\'')).isNone then return false
    skipString '\''
    return true
  | number => return (← scan Lexicon.number).isSome
  | tag => do
    let some span ← scan Lexicon.tagSpan | return false
    pushTag span
    return true
  | punctuation => emit Lexicon.punctuation .punctuation
  | regular => emit Lexicon.regular .regular
  | operator => emit Lexicon.operator .operator

/-- One round of the main loop: the rules are tried in their order until one applies; if
none does, a character is dropped. -/
def Source.round : Action Unit := do
  if !(← Rule.all.anyM Rule.attempt) then discard getChar

namespace Tag

/-- Past a quoted value whose opening quote has been read; nothing is passed if it is not
closed. -/
def skipQuoted (quote : Char) : Action Unit := do
  if (← peek 1) = [quote] then discard getChar
  else discard (skipUntil (Lexicon.stringEnd quote))

/-- Past the value that follows an equals sign. -/
def skipValue : Action Unit := do
  if (← scan (.char '"')).isSome then skipQuoted '"'
  else if (← scan (.char '\'')).isSome then skipQuoted '\''
  else discard (skipUntil Lexicon.identifier)

/-- One round of the loop inside a tag. -/
def round : Action Unit := do
  match ← scan Lexicon.tagOpening with
  | some t => push (.tag (.ofList t))
  | none =>
    match ← scan Lexicon.assignment with
    | some t =>
      push (.assignment (.ofList t))
      skipValue
    | none =>
      match ← scan Lexicon.identifier with
      | some t => push (.identifier (.ofList t))
      | none => discard getChar

end Tag

/-! ## What the actions do -/

namespace Action

variable {r : Regex} {w : Work}

theorem bind_eq {α β : Type} (x : Action α) (f : α → Action β) (w : Work) :
    (x >>= f) w = f (x w).1 (x w).2 := rfl

theorem scan_of_none (h : w.cursor.scan r = none) : scan r w = (none, w) := by
  simp only [scan, h]

theorem scan_of_some {cs : List Char} {s : Scanner} (h : w.cursor.scan r = some (cs, s)) :
    scan r w = (some cs, { w with cursor := s }) := by
  simp only [scan, h]

theorem skipUntil_eq (r : Regex) (w : Work) :
    (skipUntil r w).2 = { w with cursor := w.cursor.passUntil r } := by
  rw [skipUntil, Scanner.skipUntil, Scanner.passUntil]
  cases w.cursor.scanUntil r <;> rfl

theorem getChar_eq (w : Work) :
    (discard getChar : Action Unit) w = ((), { w with cursor := w.cursor.passChar }) := by
  show ((), (getChar w).2) = _
  rw [getChar, Scanner.passChar]
  cases w.cursor.getChar <;> rfl

theorem skipOrTerminate_eq (r : Regex) (w : Work) :
    skipOrTerminate r w = ((), { w with cursor := w.cursor.passUntilOrEnd r }) := by
  rw [skipOrTerminate, bind_eq, skipUntil, Scanner.skipUntil, Scanner.passUntilOrEnd]
  cases w.cursor.scanUntil r <;> rfl

theorem skipString_eq (quote : Char) (w : Work) :
    skipString quote w = ((), { w with cursor := Rule.passString quote w.cursor }) := by
  rw [skipString, bind_eq, Rule.passString]
  show (if w.cursor.peek 1 = [quote] then _ else _ : Action Unit) w = _
  split
  · exact getChar_eq w
  · exact skipOrTerminate_eq _ w

/-- The answer of a rule, and the work after it: no other work if it refuses. -/
def answer (w : Work) : Option (List Token × Scanner) → Bool × Work
  | none => (false, w)
  | some (ts, s) => (true, ⟨s, w.found ++ ts⟩)

/-- A rule that begins by matching at the cursor refuses there, or not at all. -/
theorem bind_scan (r : Regex) (k : Option (List Char) → Action Bool)
    (f : List Char × Scanner → List Token × Scanner) (w : Work)
    (hnone : k none w = (false, w))
    (hsome : ∀ cs s, k (some cs) ⟨s, w.found⟩
      = (true, ⟨(f (cs, s)).2, w.found ++ (f (cs, s)).1⟩)) :
    (scan r >>= k) w = answer w ((w.cursor.scan r).bind fun a => some (f a)) := by
  rw [bind_eq]
  cases h : w.cursor.scan r with
  | none => rw [scan_of_none h]; exact hnone
  | some a => rw [scan_of_some h]; exact hsome a.1 a.2

theorem emit_eq (r : Regex) (token : String → Token) (w : Work) :
    emit r token w
      = answer w ((w.cursor.scan r).bind fun (t, s) => some ([token (.ofList t)], s)) := by
  refine bind_scan r _ (fun (t, s) => ([token (.ofList t)], s)) w rfl ?_
  intro t s
  rfl

end Action

theorem Tag.collect_eq_append (span : List Char) (found : Array Token) :
    collect (.ofText span) found = found ++ tokens span := by
  refine Array.toList_inj.mp ?_
  rw [toList_collect, Array.toList_appendList, tokens_eq]
  rfl

/-- Acting at once comes to the same: what a rule does to the cursor and to the tokens is
what it says, and a rule that refuses does nothing. -/
theorem Rule.attempt_eq (rule : Rule) (w : Work) :
    rule.attempt w = answer w (rule.apply w.cursor) := by
  cases rule with
  | interpreterLine =>
    refine bind_scan Lexicon.interpreterLine _
      (fun (line, s) => ((Interpreter.ofLine? line).toList.map .interpreter, s)) w rfl ?_
    intro line s
    dsimp only
    cases Interpreter.ofLine? line <;> rfl
  | lineComment =>
    have hscan := bind_scan Lexicon.lineComment
      (fun o => if o.isNone then pure false else do
        discard (skipUntil Lexicon.lineEnd)
        return true)
      (fun (_, s) => ([], s.passUntil Lexicon.lineEnd)) w rfl ?passed
    case passed =>
      intro cs s
      show (true, (skipUntil Lexicon.lineEnd ⟨s, w.found⟩).2) = _
      rw [skipUntil_eq]
      rfl
    show (if !w.cursor.atLineStart then _ else _ : Action Bool) w
      = answer w ((guard w.cursor.atLineStart : Option Unit).bind _)
    cases w.cursor.atLineStart with
    | false => rfl
    | true => exact hscan
  | blockComment =>
    refine bind_scan Lexicon.blockOpening _ (fun (opening, s) => ([], passBlock opening s)) w
      rfl ?_
    intro opening s
    show ((match Lexicon.blockClosing? (.ofList opening) with
      | some closing => _ | none => _) : Action Bool) _ = (true, ⟨passBlock opening s, w.found⟩)
    rw [passBlock]
    cases Lexicon.blockClosing? (.ofList opening) with
    | none => rfl
    | some closing =>
      show (true, (skipOrTerminate closing ⟨s, w.found⟩).2) = _
      rw [skipOrTerminate_eq]
  | doubleQuoted =>
    refine bind_scan (.char '"') _ (fun (_, s) => ([], passString '"' s)) w rfl ?_
    intro cs s
    show (true, (skipString '"' ⟨s, w.found⟩).2) = _
    rw [skipString_eq]
    rfl
  | singleQuoted =>
    refine bind_scan (.char '\'') _ (fun (_, s) => ([], passString '\'' s)) w rfl ?_
    intro cs s
    show (true, (skipString '\'' ⟨s, w.found⟩).2) = _
    rw [skipString_eq]
    rfl
  | number =>
    refine bind_scan Lexicon.number _ (fun (_, s) => ([], s)) w rfl ?_
    intro cs s
    rfl
  | tag =>
    refine bind_scan Lexicon.tagSpan _ (fun (span, s) => (Tag.tokens span, s)) w rfl ?_
    intro span s
    show (true, (⟨s, Tag.collect (.ofText span) w.found⟩ : Work)) = _
    rw [Tag.collect_eq_append]
  | punctuation => exact emit_eq Lexicon.punctuation .punctuation w
  | regular => exact emit_eq Lexicon.regular .regular w
  | operator => exact emit_eq Lexicon.operator .operator w

/-! ## A round -/

namespace Tag

theorem skipQuoted_eq (quote : Char) (w : Work) :
    skipQuoted quote w = ((), { w with cursor := passQuoted quote w.cursor }) := by
  rw [skipQuoted, bind_eq, passQuoted]
  show (if w.cursor.peek 1 = [quote] then _ else _ : Action Unit) w = _
  split
  · exact getChar_eq w
  · exact congrArg ((), ·) (skipUntil_eq _ w)

theorem skipValue_eq (w : Work) :
    skipValue w = ((), { w with cursor := passValue w.cursor }) := by
  rw [skipValue, bind_eq, passValue]
  cases hdouble : w.cursor.scan (.char '"') with
  | some a => rw [scan_of_some hdouble]; exact skipQuoted_eq '"' _
  | none =>
    rw [scan_of_none hdouble]
    show (scan (.char '\'') >>= _ : Action Unit) w = _
    rw [bind_eq]
    cases hsingle : w.cursor.scan (.char '\'') with
    | some a => rw [scan_of_some hsingle]; exact skipQuoted_eq '\'' _
    | none => rw [scan_of_none hsingle]; exact congrArg ((), ·) (skipUntil_eq _ w)

theorem round_eq (w : Work) :
    round w = ((), ⟨(step w.cursor).2, (step w.cursor).1.elim w.found w.found.push⟩) := by
  rw [round, bind_eq, step]
  cases hname : w.cursor.scan Lexicon.tagOpening with
  | some a => rw [scan_of_some hname]; rfl
  | none =>
    rw [scan_of_none hname]
    show (scan Lexicon.assignment >>= _ : Action Unit) w = _
    rw [bind_eq]
    cases hassignment : w.cursor.scan Lexicon.assignment with
    | some a => rw [scan_of_some hassignment]; exact skipValue_eq _
    | none =>
      rw [scan_of_none hassignment]
      show (scan Lexicon.identifier >>= _ : Action Unit) w = _
      rw [bind_eq]
      cases hidentifier : w.cursor.scan Lexicon.identifier with
      | some a => rw [scan_of_some hidentifier]; rfl
      | none => rw [scan_of_none hidentifier]; exact getChar_eq w

end Tag

namespace Source

/-- Rules tried one after the other on the same cursor: the first that applies acts as if
those before it had not been tried. -/
theorem anyM_attempt (rules : List Rule) (w : Work) :
    rules.anyM Rule.attempt w = answer w (rules.findSome? (·.apply w.cursor)) := by
  induction rules with
  | nil => rfl
  | cons rule rules ih =>
    rw [List.anyM, bind_eq, Rule.attempt_eq, List.findSome?_cons]
    cases h : rule.apply w.cursor with
    | none => exact ih
    | some a => rfl

theorem round_eq (w : Work) :
    round w = ((), ⟨(step w.cursor).2, w.found ++ (step w.cursor).1⟩) := by
  rw [round, bind_eq, anyM_attempt, step]
  cases Rule.all.findSome? (·.apply w.cursor) with
  | none => exact getChar_eq w
  | some a => rfl

end Source

end SourceTokens
