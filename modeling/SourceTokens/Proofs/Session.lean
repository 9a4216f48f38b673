/-
# `SourceTokens.Proofs.Session` — what every sequence of calls keeps

A session asks a scanner one thing after the other, and may clone it at any time and go on
with both.  Each scanner of a session is followed with the text that it has given out:
`taken` puts together what the calls answered, where for `skipUntil`, which answers a number
of octets, it is the characters that take so many.

A call either leaves the scanner as it is or moves it over what it answers,
`s.Moves w t`; from this it follows, call by call, that every scanner of every session is
`Sound`: its cursor stands between two characters of the text, what it has given out is the
text before the cursor, and what is ahead is the rest (`Session.run_sound`).
-/
import SourceTokens.Proofs.Cursor

namespace SourceTokens.Scanner

/-! ## Calls -/

/-- What can be asked of a scanner. -/
inductive Call
  | scan (r : Regex)
  | scanUntil (r : Regex)
  | skipUntil (r : Regex)
  | getChar
  | peek (n : Nat)
  | terminate
  deriving DecidableEq, Repr

/-- What a scanner answers: some of the text, a number of octets, or nothing. -/
inductive Answer
  | text (cs : List Char)
  | octets (n : Nat)
  | nothing
  deriving DecidableEq, Repr

/-- A call that may fail, and leaves the scanner as it is when it does. -/
def attempt {α : Type} (s : Scanner) (answer : α → Answer) : Option (α × Scanner) → Answer × Scanner
  | some (a, t) => (answer a, t)
  | none => (.nothing, s)

/-- The answer to a call, and the scanner after it. -/
def ask (s : Scanner) : Call → Answer × Scanner
  | .scan r => s.attempt .text (s.scan r)
  | .scanUntil r => s.attempt .text (s.scanUntil r)
  | .skipUntil r => s.attempt .octets (s.skipUntil r)
  | .getChar => s.attempt (fun c => .text [c]) s.getChar
  | .peek n => (.text (s.peek n), s)
  | .terminate => (.nothing, s.terminate)

/-- The characters at the front of a text that take `n` octets. -/
def firstOctets : Nat → List Char → List Char
  | _, [] => []
  | n, c :: cs => if c.utf8Size ≤ n then c :: firstOctets (n - c.utf8Size) cs else []

/-- The text that a call gives out with its answer, if `ahead` was ahead of the cursor. -/
def Call.taken : Call → List Char → Answer → List Char
  | .peek _, _, _ => []
  | _, _, .text cs => cs
  | _, ahead, .octets n => firstOctets n ahead
  | _, _, .nothing => []

/-! ## Sessions -/

/-- A scanner in use: the text it has given out, and whether it was sent to the end. -/
structure Handle where
  scanner : Scanner
  taken : List Char
  ended : Bool
  deriving DecidableEq, Repr

namespace Handle

/-- A scanner that nothing has been asked of. -/
def ofText (text : List Char) : Handle := ⟨.ofText text, [], false⟩

def ask (h : Handle) (c : Call) : Handle where
  scanner := (h.scanner.ask c).2
  taken := h.taken ++ c.taken h.scanner.rest (h.scanner.ask c).1
  ended := h.ended || decide (c = .terminate)

end Handle

/-- To ask something of the scanner with a number, or to clone it. -/
inductive Command
  | ask (i : Nat) (c : Call)
  | clone (i : Nat)
  deriving DecidableEq, Repr

namespace Session

/-- The scanners after a command.  A clone comes last. -/
def step (hs : List Handle) : Command → List Handle
  | .ask i c => hs.modify i (·.ask c)
  | .clone i => hs ++ hs[i]?.toList

/-- The scanners after a sequence of commands, from a single new one on. -/
def run (text : List Char) (cs : List Command) : List Handle :=
  cs.foldl step [.ofText text]

end Session

/-! ## What is claimed of a scanner in use -/

/-- A scanner in use on a text is where it should be, and has given out what it should. -/
structure Handle.Sound (text : List Char) (h : Handle) : Prop where
  /-- What is ahead is the rest of the text, from the offset of the cursor on. -/
  rest : firstOctets h.scanner.pos text ++ h.scanner.rest = text
  /-- The offset of the cursor falls between two characters. -/
  boundary : octets (firstOctets h.scanner.pos text) = h.scanner.pos
  pos_le : h.scanner.pos ≤ octets text
  /-- What has been given out is the text up to the cursor. -/
  taken : h.ended = false → h.taken = firstOctets h.scanner.pos text
  atEnd_iff : h.scanner.atEnd = true ↔ h.scanner.rest = []
  atEnd_iff_pos : h.scanner.atEnd = true ↔ h.scanner.pos = octets text
  atLineStart_iff : 2 ≤ h.scanner.pos →
    (h.scanner.atLineStart = true
      ↔ (firstOctets h.scanner.pos text).getLast? = some '\n')

/-- What a scanner does when it is asked. -/
structure Answers (s : Scanner) : Prop where
  pos_le : ∀ c, s.pos ≤ (s.ask c).2.pos
  /-- A call that fails leaves the scanner as it is. -/
  fails : ∀ c, c ≠ .terminate → (s.ask c).1 = .nothing → (s.ask c).2 = s
  peeks : ∀ n, (s.ask (.peek n)).2 = s
  /-- A search for a number of octets moves as the search for the text does. -/
  skips : ∀ r, (s.ask (.skipUntil r)).2 = (s.ask (.scanUntil r)).2
  /-- Its answer is the length of the text. -/
  counts : ∀ r, (s.ask (.skipUntil r)).1 = match (s.ask (.scanUntil r)).1 with
    | .text cs => .octets (octets cs)
    | answer => answer

/-! ## What calls do -/

theorem firstOctets_append (w t : List Char) : firstOctets (octets w) (w ++ t) = w := by
  induction w with
  | nil =>
    cases t with
    | nil => rfl
    | cons c t => exact if_neg (Nat.not_le_of_lt c.utf8Size_pos)
  | cons c w ih =>
    show (if c.utf8Size ≤ c.utf8Size + octets w then
      c :: firstOctets (c.utf8Size + octets w - c.utf8Size) (w ++ t) else []) = _
    rw [if_pos (Nat.le_add_right _ _), Nat.add_sub_cancel_left, ih]

namespace Moves

/-- A call moves the cursor over the text that it gives out. -/
theorem ask {c : Call} (hc : c ≠ .terminate) (s : Scanner) :
    s.Moves (c.taken s.rest (s.ask c).1) (s.ask c).2 := by
  cases c with
  | scan r =>
    show s.Moves (Call.taken _ _ (s.attempt .text (s.scan r)).1) (s.attempt .text (s.scan r)).2
    cases h : s.scan r with
    | none => exact refl s
    | some a => exact of_scan h
  | scanUntil r =>
    show s.Moves (Call.taken _ _ (s.attempt .text (s.scanUntil r)).1)
      (s.attempt .text (s.scanUntil r)).2
    cases h : s.scanUntil r with
    | none => exact refl s
    | some a => exact of_scanUntil h
  | skipUntil r =>
    show s.Moves (Call.taken _ _ (s.attempt .octets (s.skipUntil r)).1)
      (s.attempt .octets (s.skipUntil r)).2
    rw [skipUntil]
    cases h : s.scanUntil r with
    | none => exact refl s
    | some a =>
      have hmoves := of_scanUntil h
      show s.Moves (firstOctets (octets a.1) s.rest) a.2
      rw [hmoves.rest, firstOctets_append]
      exact hmoves
  | getChar =>
    show s.Moves (Call.taken _ _ (s.attempt _ s.getChar).1) (s.attempt _ s.getChar).2
    cases h : s.getChar with
    | none => exact refl s
    | some a => exact of_getChar h
  | peek n => exact refl s
  | terminate => exact absurd rfl hc

theorem exists_ask (s : Scanner) (c : Call) : ∃ w, s.Moves w (s.ask c).2 := by
  by_cases hc : c = .terminate
  · subst hc
    exact ⟨_, terminate s⟩
  · exact ⟨_, ask hc s⟩

end Moves

theorem answers (s : Scanner) : s.Answers := by
  have hattempt : ∀ {α : Type} (answer : α → Answer) (o : Option (α × Scanner)),
      (∀ a, answer a ≠ .nothing) → (s.attempt answer o).1 = .nothing →
        (s.attempt answer o).2 = s := by
    intro α answer o hanswer h
    cases o with
    | none => rfl
    | some a => exact absurd h (hanswer a.1)
  constructor
  case pos_le =>
    intro c
    obtain ⟨w, hw⟩ := Moves.exists_ask s c
    exact hw.pos_le
  case fails =>
    intro c hc hnothing
    cases c with
    | scan r => exact hattempt _ _ nofun hnothing
    | scanUntil r => exact hattempt _ _ nofun hnothing
    | skipUntil r => exact hattempt _ _ nofun hnothing
    | getChar => exact hattempt _ _ nofun hnothing
    | peek n => rfl
    | terminate => exact absurd rfl hc
  case peeks =>
    intro n
    rfl
  case skips =>
    intro r
    show (s.attempt .octets (s.skipUntil r)).2 = (s.attempt .text (s.scanUntil r)).2
    rw [skipUntil]
    cases s.scanUntil r <;> rfl
  case counts =>
    intro r
    show (s.attempt .octets (s.skipUntil r)).1 = match (s.attempt .text (s.scanUntil r)).1 with
      | .text cs => .octets (octets cs)
      | answer => answer
    rw [skipUntil]
    cases s.scanUntil r <;> rfl

theorem atLineStart_iff_of_two_le {s : Scanner} (h : 2 ≤ s.pos) :
    s.atLineStart = true ↔ s.passed.head? = some '\n' := by
  obtain ⟨passed, rest⟩ := s
  rcases passed with _ | ⟨c, _ | ⟨d, passed⟩⟩
  · have h : 2 ≤ octets [] := h
    exact absurd h (by decide)
  · -- A newline by itself takes one octet.
    constructor
    · nofun
    · intro hc
      cases Option.some.inj hc
      have h : 2 ≤ octets ['\n'] := h
      exact absurd h (by decide)
  · show (c == '\n') = true ↔ some c = some '\n'
    rw [beq_iff_eq, Option.some.injEq]

/-! ## Every session -/

/-- What each call keeps: the scanner is on the text, and has given out what it has passed. -/
structure Handle.Tracks (text : List Char) (h : Handle) : Prop where
  text_eq : h.scanner.text = text
  taken : h.ended = false → h.taken = h.scanner.passed.reverse

namespace Handle.Tracks

variable {text : List Char} {h : Handle}

theorem ofText (text : List Char) : (Handle.ofText text).Tracks text := ⟨rfl, fun _ => rfl⟩

theorem ask (hh : h.Tracks text) (c : Call) : (h.ask c).Tracks text := by
  constructor
  case text_eq =>
    obtain ⟨w, hw⟩ := Moves.exists_ask h.scanner c
    exact hw.text_eq.trans hh.text_eq
  case taken =>
    intro hended
    obtain ⟨hbefore, hc⟩ := Bool.or_eq_false_iff.mp hended
    have hmoves := Moves.ask (of_decide_eq_false hc) h.scanner
    show h.taken ++ _ = (h.scanner.ask c).2.passed.reverse
    rw [hmoves.passed, List.reverse_append, List.reverse_reverse, hh.taken hbefore]

theorem sound (hh : h.Tracks text) : h.Sound text := by
  have hfront : firstOctets h.scanner.pos text = h.scanner.passed.reverse := by
    rw [← hh.text_eq, Scanner.text, pos, ← octets_reverse, firstOctets_append]
  have hlength : octets text = h.scanner.pos + octets h.scanner.rest := by
    rw [← hh.text_eq, Scanner.text, octets_append, octets_reverse, pos]
  constructor
  case rest =>
    rw [hfront]
    exact hh.text_eq
  case boundary => rw [hfront, octets_reverse, pos]
  case pos_le => exact hlength ▸ Nat.le_add_right _ _
  case taken =>
    intro hended
    rw [hfront, hh.taken hended]
  case atEnd_iff => exact List.isEmpty_iff
  case atEnd_iff_pos =>
    rw [atEnd, List.isEmpty_iff, hlength]
    constructor
    · intro hrest
      rw [hrest]
      rfl
    · intro hpos
      exact eq_nil_of_octets_eq_zero (by omega)
  case atLineStart_iff =>
    intro hpos
    rw [hfront, List.getLast?_reverse]
    exact atLineStart_iff_of_two_le hpos

end Handle.Tracks

namespace Session

theorem step_tracks {text : List Char} {hs : List Handle} (hhs : ∀ h ∈ hs, h.Tracks text)
    (c : Command) : ∀ h ∈ step hs c, h.Tracks text := by
  intro h hh
  cases c with
  | ask i c =>
    obtain ⟨j, hj⟩ := List.mem_iff_getElem?.mp hh
    rw [step, List.getElem?_modify] at hj
    obtain ⟨h', hh', rfl⟩ := Option.map_eq_some_iff.mp hj
    have htracks := hhs h' (List.mem_of_getElem? hh')
    show (if i = j then h'.ask c else h').Tracks text
    split
    · exact htracks.ask c
    · exact htracks
  | clone i =>
    rcases List.mem_append.mp hh with hh | hh
    · exact hhs h hh
    · exact hhs h (List.mem_of_getElem? (Option.mem_toList.mp hh))

theorem run_tracks (text : List Char) (cs : List Command) :
    ∀ h ∈ run text cs, h.Tracks text := by
  have hstart : ∀ h ∈ [Handle.ofText text], h.Tracks text := by
    intro h hh
    exact List.mem_singleton.mp hh ▸ .ofText text
  unfold run
  generalize [Handle.ofText text] = hs at hstart
  induction cs generalizing hs with
  | nil => exact hstart
  | cons c cs ih => exact ih (step hs c) (step_tracks hstart c)

/-- A scanner of a session stays one, and its cursor does not go back. -/
theorem exists_pos_le_of_step {hs : List Handle} {i : Nat} {h : Handle} (hh : hs[i]? = some h)
    (c : Command) : ∃ h', (step hs c)[i]? = some h' ∧ h.scanner.pos ≤ h'.scanner.pos := by
  cases c with
  | ask j c =>
    rw [step, List.getElem?_modify, hh]
    refine ⟨_, rfl, ?_⟩
    split
    · exact h.scanner.answers.pos_le c
    · exact Nat.le_refl _
  | clone j =>
    obtain ⟨hlt, _⟩ := List.getElem?_eq_some_iff.mp hh
    refine ⟨h, ?_, Nat.le_refl _⟩
    rw [step, List.getElem?_append_left hlt, hh]

theorem exists_pos_le_of_steps {hs : List Handle} {i : Nat} {h : Handle} (hh : hs[i]? = some h)
    (cs : List Command) :
    ∃ h', (cs.foldl step hs)[i]? = some h' ∧ h.scanner.pos ≤ h'.scanner.pos := by
  induction cs generalizing hs h with
  | nil => exact ⟨h, hh, Nat.le_refl _⟩
  | cons c cs ih =>
    obtain ⟨m, hm, hle⟩ := exists_pos_le_of_step hh c
    obtain ⟨h', hh', hle'⟩ := ih hm
    exact ⟨h', hh', Nat.le_trans hle hle'⟩

/-- Whatever is asked of a scanner and of its clones, each of them is sound, answers as it
should, and does not go back. -/
theorem run_sound (text : List Char) (cs ds : List Command) :
    (∀ h ∈ run text cs, h.Sound text ∧ h.scanner.Answers) ∧
      ∀ (i : Nat) (h : Handle), (run text cs)[i]? = some h →
        ∃ h', (run text (cs ++ ds))[i]? = some h' ∧ h.scanner.pos ≤ h'.scanner.pos := by
  constructor
  · intro h hh
    exact ⟨(run_tracks text cs h hh).sound, h.scanner.answers⟩
  · intro i h hh
    rw [run, List.foldl_append]
    exact exists_pos_le_of_steps hh ds

end Session

end SourceTokens.Scanner
