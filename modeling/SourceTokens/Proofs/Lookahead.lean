/-
# `SourceTokens.Proofs.Lookahead` — looking ahead shows what would be taken

A scanner shows the characters ahead without moving, and it gives them out one by one.  The
first is a cut through the octets ahead, at the place where a character begins; the second
moves the cursor by the octets of one character at a time.  For every number of characters
and wherever the cursor stands, they agree (`Scanner.looksAhead`): `takeChars` asks for up to
`n` characters and stops where there is none, and what it is given is what `peek` shows.
Asked on and on, by `takeAll`, a scanner gives out all that is ahead.

In a session the characters are asked of a clone, and the scanner itself stays where it is
(`Session.run_lookahead`).
-/
import SourceTokens.Proofs.Session
import SourceTokens.Proofs.Text.Utf8

namespace SourceTokens.Scanner

open Text.Utf8 (encode)

variable {s t : Scanner} {c : Char}

/-! ## Characters one after the other -/

theorem length_rest_of_getChar (h : s.getChar = some (c, t)) :
    t.rest.length < s.rest.length := by
  rw [(Moves.of_getChar h).rest]
  exact Nat.lt_succ_self _

/-- Up to `n` characters, and no more once there is none to take. -/
def takeChars : Nat → Scanner → List Char × Scanner
  | 0, s => ([], s)
  | n + 1, s =>
    match s.getChar with
    | none => ([], s)
    | some (c, t) => (c :: (takeChars n t).1, (takeChars n t).2)

/-- Characters until there is none to take. -/
def takeAll (s : Scanner) : List Char × Scanner :=
  match _h : s.getChar with
  | none => ([], s)
  | some (c, t) => (c :: (takeAll t).1, (takeAll t).2)
termination_by s.rest.length
decreasing_by all_goals exact length_rest_of_getChar ‹_›

/-- The offset at which the character with the number `n` begins, in octets. -/
def offset? : Nat → List Char → Option Nat
  | _, [] => none
  | 0, _ :: _ => some 0
  | n + 1, c :: cs => (offset? n cs).map (c.utf8Size + ·)

/-- What looking ahead is worth: it shows what taking characters gives. -/
structure LooksAhead (s : Scanner) : Prop where
  /-- Asked for up to `n` characters, the scanner gives those that it shows. -/
  peek_eq : ∀ n, s.peek n = (s.takeChars n).1
  /-- It has then passed them. -/
  moves : ∀ n, s.Moves (s.peek n) (s.takeChars n).2
  /-- They are the next ones ahead. -/
  isPrefix : ∀ n, s.peek n <+: s.rest
  /-- There are as many as were asked for, or as many as are left. -/
  length_peek : ∀ n, (s.peek n).length = min n s.rest.length
  /-- In octets, the text ahead is the text from the offset of the cursor on. -/
  encode_rest : encode (.ofList s.rest) = (encode (.ofList s.text)).drop s.pos
  /-- It is shown up to where the character with the number `n` begins, if there is one. -/
  encode_peek : ∀ n, encode (.ofList (s.peek n))
    = match offset? n s.rest with
      | some k => (encode (.ofList s.rest)).take k
      | none => encode (.ofList s.rest)
  /-- A character is taken whole. -/
  encode_getChar : ∀ c t, s.getChar = some (c, t) → t.pos = s.pos + c.utf8Size ∧
    encode (.ofList [c]) = (encode (.ofList s.rest)).take c.utf8Size
  /-- There is none to take at the end of the text and nowhere else. -/
  getChar_eq_none_iff : s.getChar = none ↔ s.atEnd = true
  /-- Until then, all that is ahead is taken. -/
  takeAll_eq : s.takeAll = (s.rest, s.terminate)

theorem getChar_eq_none_iff : s.getChar = none ↔ s.rest = [] := by
  obtain ⟨passed, rest⟩ := s
  cases rest with
  | nil => exact iff_of_true rfl rfl
  | cons c rest => exact iff_of_false nofun nofun

theorem takeChars_of_none (h : s.getChar = none) (n : Nat) : s.takeChars n = ([], s) := by
  cases n with
  | zero => rfl
  | succ n => rw [takeChars, h]

theorem takeChars_eq (n : Nat) (s : Scanner) :
    s.takeChars n = (s.rest.take n, s.upTo (s.rest.drop n)) := by
  induction n generalizing s with
  | zero =>
    rw [List.drop_zero, upTo_self]
    rfl
  | succ n ih =>
    obtain ⟨passed, rest⟩ := s
    cases rest with
    | nil => exact congrArg (Prod.mk []) (upTo_self ⟨passed, []⟩).symm
    | cons c rest =>
      show (c :: (takeChars n ⟨c :: passed, rest⟩).1, (takeChars n ⟨c :: passed, rest⟩).2) = _
      rw [ih, upTo_passed_cons c (List.drop_suffix n rest)]
      rfl

theorem takeAll_eq (s : Scanner) : s.takeAll = (s.rest, s.terminate) := by
  fun_induction takeAll s with
  | case1 s h =>
    obtain ⟨passed, rest⟩ := s
    obtain rfl : rest = [] := getChar_eq_none_iff.mp h
    rfl
  | case2 s c t h ih =>
    have hmoves := Moves.of_getChar h
    rw [ih, hmoves.rest, terminate, terminate, hmoves.passed, hmoves.rest]
    simp

/-! ## Octets -/

theorem encode_ofList_append (x y : List Char) :
    encode (.ofList (x ++ y)) = encode (.ofList x) ++ encode (.ofList y) := by
  rw [String.ofList_append, Text.Utf8.encode_append]

theorem length_encode (cs : List Char) : (encode (.ofList cs)).length = octets cs := by
  rw [Text.Utf8.encode_eq, String.toList_ofList]
  induction cs with
  | nil => rfl
  | cons c cs ih =>
    rw [List.flatMap_cons, List.length_append, ih, String.length_utf8EncodeChar]
    rfl

theorem take_encode_append (x y : List Char) :
    (encode (.ofList (x ++ y))).take (octets x) = encode (.ofList x) := by
  rw [encode_ofList_append, ← length_encode, List.take_left]

theorem drop_encode_append (x y : List Char) :
    (encode (.ofList (x ++ y))).drop (octets x) = encode (.ofList y) := by
  rw [encode_ofList_append, ← length_encode, List.drop_left]

theorem offset?_eq (n : Nat) (cs : List Char) :
    offset? n cs = if n < cs.length then some (octets (cs.take n)) else none := by
  induction cs generalizing n with
  | nil => simp [offset?]
  | cons c cs ih =>
    cases n with
    | zero => rfl
    | succ n =>
      rw [offset?, ih]
      simp only [List.length_cons, Nat.add_lt_add_iff_right]
      split <;> rfl

theorem encode_take (n : Nat) (cs : List Char) :
    encode (.ofList (cs.take n)) = match offset? n cs with
      | some k => (encode (.ofList cs)).take k
      | none => encode (.ofList cs) := by
  rw [offset?_eq]
  by_cases hn : n < cs.length
  · have hcut := take_encode_append (cs.take n) (cs.drop n)
    rw [List.take_append_drop] at hcut
    rw [if_pos hn]
    exact hcut.symm
  · rw [if_neg hn, List.take_of_length_le (Nat.le_of_not_lt hn)]

/-- Looking ahead and taking characters agree, wherever the cursor stands. -/
theorem looksAhead (s : Scanner) : s.LooksAhead := by
  have htext : s.text = s.passed.reverse ++ s.rest := rfl
  constructor
  case peek_eq =>
    intro n
    rw [takeChars_eq, peek]
  case moves =>
    intro n
    have hbefore : s.before (s.rest.drop n) = s.rest.take n :=
      before_of_eq (List.take_append_drop n s.rest).symm
    rw [takeChars_eq, peek, ← hbefore]
    exact ⟨rfl, (before_append (List.drop_suffix n s.rest)).symm⟩
  case isPrefix =>
    intro n
    exact List.take_prefix n s.rest
  case length_peek =>
    intro n
    exact List.length_take
  case encode_rest => rw [htext, pos, ← octets_reverse, drop_encode_append]
  case encode_peek =>
    intro n
    exact encode_take n s.rest
  case encode_getChar =>
    intro c t h
    have hmoves := Moves.of_getChar h
    have hoctets : octets [c] = c.utf8Size := Nat.add_zero _
    constructor
    · rw [pos, pos, hmoves.passed, octets_append, octets_reverse, hoctets, Nat.add_comm]
    · rw [hmoves.rest, ← hoctets, take_encode_append]
  case getChar_eq_none_iff => exact getChar_eq_none_iff.trans List.isEmpty_iff.symm
  case takeAll_eq => exact s.takeAll_eq

/-! ## Asking a clone -/

theorem Handle.ask_getChar (h : Handle) : h.ask .getChar
    = match h.scanner.getChar with
      | none => h
      | some (c, t) => ⟨t, h.taken ++ [c], h.ended⟩ := by
  obtain ⟨⟨passed, rest⟩, taken, ended⟩ := h
  cases rest with
  | nil =>
    show Handle.mk _ (taken ++ []) (ended || false) = _
    rw [List.append_nil, Bool.or_false]
    rfl
  | cons c rest =>
    show Handle.mk _ _ (ended || false) = _
    rw [Bool.or_false]
    rfl

theorem Handle.foldl_ask_getChar (n : Nat) (h : Handle) :
    (List.replicate n .getChar).foldl ask h
      = ⟨(h.scanner.takeChars n).2, h.taken ++ (h.scanner.takeChars n).1, h.ended⟩ := by
  induction n generalizing h with
  | zero =>
    show h = ⟨h.scanner, h.taken ++ [], h.ended⟩
    rw [List.append_nil]
  | succ n ih =>
    rw [List.replicate_succ, List.foldl_cons, ih, ask_getChar, takeChars]
    cases hc : h.scanner.getChar with
    | none => rw [takeChars_of_none hc]
    | some a =>
      obtain ⟨c, t⟩ := a
      show Handle.mk _ (h.taken ++ [c] ++ _) _ = _
      rw [List.append_assoc]
      rfl

namespace Session

/-- To ask the last scanner leaves the others as they are. -/
theorem foldl_step_last (hs : List Handle) (h : Handle) (c : Call) (n : Nat) :
    (List.replicate n (.ask hs.length c)).foldl step (hs ++ [h])
      = hs ++ [(List.replicate n c).foldl Handle.ask h] := by
  induction n generalizing h with
  | zero => rfl
  | succ n ih =>
    have hstep : step (hs ++ [h]) (.ask hs.length c) = hs ++ [h.ask c] := by
      rw [step, List.modify_eq_take_drop, List.take_left, List.drop_left]
      rfl
    rw [List.replicate_succ, List.foldl_cons, hstep, ih]
    rfl

/-- Looking ahead and taking characters agree, wherever the cursor stands.  So they do in
every session: of a clone of a scanner, up to `n` characters are taken that the scanner shows,
and no other scanner is moved. -/
theorem run_lookahead :
    (∀ s : Scanner, s.LooksAhead) ∧
    ∀ (text : List Char) (cs : List Command) (i : Nat) (h : Handle) (n : Nat),
      (run text cs)[i]? = some h →
      ∃ clone : Handle,
        run text (cs ++ .clone i :: .replicate n (.ask (run text cs).length .getChar))
          = run text cs ++ [clone] ∧
        clone.taken = h.taken ++ h.scanner.peek n ∧
        clone.scanner = (h.scanner.takeChars n).2 := by
  refine ⟨looksAhead, ?_⟩
  intro text cs i h n hh
  have hclone : step (run text cs) (.clone i) = run text cs ++ [h] := by
    rw [step, hh]
    rfl
  refine ⟨(List.replicate n .getChar).foldl Handle.ask h, ?_, ?_, ?_⟩
  · rw [run, List.foldl_append, ← run, List.foldl_cons, hclone, foldl_step_last]
  · rw [Handle.foldl_ask_getChar, h.scanner.looksAhead.peek_eq]
  · rw [Handle.foldl_ask_getChar]

/-- Behind `a`, which takes one octet, are two characters that take two and four. -/
theorem run_lookahead_widths :
    let text := ['a', 'é', '😀']
    let cs := [Command.ask 0 .getChar]
    ∃ h clone : Handle, (run text cs)[0]? = some h ∧
      run text (cs ++ .clone 0 :: .replicate 1 (.ask 1 .getChar)) = [h, clone] ∧
      h.scanner.peek 1 = ['é'] ∧ clone.taken = ['a', 'é'] ∧
      h.scanner.pos = 1 ∧ clone.scanner.pos = 3 ∧
      h.scanner.peek 18446744073709551615 = ['é', '😀'] := by
  intro text cs
  let h : Handle := ⟨⟨['a'], ['é', '😀']⟩, ['a'], false⟩
  have hh : (run text cs)[0]? = some h := rfl
  obtain ⟨clone, hrun, htaken, hclone⟩ := run_lookahead.2 text cs 0 h 1 hh
  refine ⟨h, clone, hh, hrun, rfl, htaken, rfl, ?_, rfl⟩
  rw [hclone]
  rfl

end Session

end SourceTokens.Scanner
