/-
# `SourceTokens.Proofs.Settings` — what a document says as settings

Reading settings is described in two steps that know nothing of one another: a text says
a document, and a document says settings or none (`Config.ofDocument?`).  The reader of
settings takes both steps at once, and comes to the same (`Config.read_of_writes`).  All
that is known of blanks, escapes and the order of reading is in the first step, all that
is known of fields in the second.
-/
import SourceTokens.Config.Reader
import SourceTokens.Proofs.Json.Documents
import SourceTokens.Proofs.Json.Values

namespace SourceTokens.Config

open SourceTokens.Json

/-! ## Settings of a document -/

/-- A format is its name, or an object with the name for its only key and null for its
value. -/
def formatOf? : Document → Option Format
  | .string s => Format.ofKey? s
  | .object [(k, .null)] => Format.ofKey? k
  | _ => none

/-- The settings with a field set as the document says. -/
def setField? (config : Config) (f : Field) (d : Document) : Option Config :=
  match f with
  | .format => (d.orNull? formatOf?).map fun v => { config with format := v }
  | .maxFileSize => (d.orNull? Document.word64?).map fun v => { config with maxFileSize := v }
  | .time => (d.orNull? Document.boolean?).map fun v => { config with time := v }

/-- The settings with the fields of an object, each of which has to be one of those that
are left. -/
def ofFields? (config : Config) (left : List Field) :
    List (String × Document) → Option Config
  | [] => some config
  | (k, d) :: fields => do
    let f ← Field.ofName? k
    if f ∈ left then ofFields? (← setField? config f d) (left.erase f) fields else none

/-- The settings with the elements of a list, one for each of the fields. -/
def ofElements? (config : Config) : List Field → List Document → Option Config
  | [], [] => some config
  | f :: fields, d :: ds => do ofElements? (← setField? config f d) fields ds
  | _, _ => none

/-- The settings that a document says. -/
def ofDocument? : Document → Option Config
  | .object fields => ofFields? unset Field.all fields
  | .array ds => ofElements? unset Field.all ds
  | _ => none

/-! ## One field -/

variable {b r t : List Char} {c : Cursor} {d : Document} {config : Config}

theorem reading_readFormatName (h : Says d t) (hb : Blank b) (hc : c.rest = b ++ (t ++ r)) :
    reading (readFormatName c) = (d.string?.bind Format.ofKey?).map (·, r) := by
  have hstring := reading_string "variant identifier" h hb hc
  cases hs : d.string? with
  | none =>
    rw [hs] at hstring
    obtain ⟨e, herror⟩ := reading_eq_none_iff.mp hstring
    simp [readFormatName, herror, bind, Except.bind]
  | some s =>
    rw [hs] at hstring
    obtain ⟨c₁, hread, rfl⟩ := reading_eq_some_iff.mp hstring
    cases hf : Format.ofKey? s <;> simp [readFormatName, hread, hf, bind, Except.bind]

theorem formatOf?_object_of_ne {k : String} {fields : List (String × Document)} (h : d ≠ .null) :
    formatOf? (.object ((k, d) :: fields)) = none := by
  cases d with
  | null => exact absurd rfl h
  | _ => rfl

/-- An object is no format, unless the name of one is its only key. -/
theorem reading_readFormat_object {fields : List (String × Document)}
    (h : Fields true fields t) (hb : Blank b) (hc : c.rest = b ++ '\x7b' :: (t ++ r)) :
    reading (readFormat c) = (formatOf? (.object fields)).map (·, r) := by
  obtain ⟨c₁, hvalue, hopen⟩ := reading_eq_some_iff.mp (reading_value hb (by decide) hc)
  have hrest : c₁.bump.rest = t ++ r := rest_bump hopen
  cases h with
  | close hb' =>
    obtain ⟨c₂, hclose, -⟩ := reading_eq_some_iff.mp
      (reading_value hb' (d := '\x7d') (by decide) (by simpa using hrest))
    obtain ⟨e, herror⟩ :=
      exists_unexpected_eq_error (α := String × Cursor) "variant identifier" c₂
    simp [readFormat, readFormatName, string, hvalue, hclose, herror, formatOf?, bind, Except.bind]
  | @cons _ k d fields l kt b₁ b₂ t ts hl hk hb₁ hb₂ hd hfields =>
    obtain @⟨_, hl⟩ := hl
    have hname := reading_readFormatName (r := b₁ ++ ':' :: (b₂ ++ (t ++ (ts ++ r))))
      (.string hk) hl (by simpa using hrest)
    cases hf : Format.ofKey? k with
    | none =>
      obtain ⟨e, herror⟩ := reading_eq_none_iff.mp (by simpa [Document.string?, hf] using hname)
      have hnone : formatOf? (.object ((k, d) :: fields)) = none := by
        rw [formatOf?.eq_def]
        split <;> simp_all
      simp [readFormat, hvalue, herror, hnone, bind, Except.bind]
    | some f =>
      obtain ⟨c₂, hkey, hrest⟩ :=
        reading_eq_some_iff.mp (by simpa [Document.string?, hf] using hname)
      obtain ⟨c₃, hcolon, hrest⟩ := leaving_eq_some_iff.mp (leaving_colon hb₁ hrest)
      by_cases hnull : d = .null
      case pos =>
        subst hnull
        obtain ⟨c₄, hword, hrest⟩ := leaving_eq_some_iff.mp (leaving_null hd hb₂ hrest)
        cases hfields with
        | close hb₃ =>
          have hskip : c₄.skipBlank.rest = '\x7d' :: r :=
            rest_skipBlank hb₃ (bare_cons (by decide)) (by simpa using hrest)
          simp [readFormat, hvalue, hkey, hcolon, hword, peek_of_rest hskip, rest_bump hskip,
            formatOf?, hf, bind, Except.bind]
        | cons hl =>
          cases hl with
          | later hb₃ =>
            have hcomma : ¬ Blank [','] := by decide
            have hskip := rest_skipBlank hb₃ (bare_cons hcomma) (by simpa using hrest)
            simp [readFormat, hvalue, hkey, hcolon, hword, peek_of_rest hskip, formatOf?,
              bind, Except.bind]
      case neg =>
        obtain ⟨e, herror⟩ := leaving_eq_none_iff.mp (leaving_null_of_ne hd hnull hb₂ hrest)
        simp [readFormat, hvalue, hkey, hcolon, herror, formatOf?_object_of_ne hnull,
          bind, Except.bind]

theorem reading_readFormat (h : Says d t) (hb : Blank b) (hc : c.rest = b ++ (t ++ r)) :
    reading (readFormat c) = (formatOf? d).map (·, r) := by
  have hsays := h
  obtain ⟨f, u, c₁, htext, hvalue, hrest⟩ := exists_value h hb hc
  cases h with
  | object hfields => exact reading_readFormat_object hfields hb hc
  | @string s t ht =>
    cases htext
    have hname : reading (readFormatName c₁) = (formatOf? (.string s)).map (·, r) :=
      reading_readFormatName hsays blank_nil hrest
    simpa [readFormat, hvalue, bind, Except.bind] using hname
  | nullWord | trueWord | falseWord | array =>
    cases htext
    simp [readFormat, hvalue, formatOf?, bind, Except.bind]
  | @number x hx =>
    simp [readFormat, hvalue, hx.first_ne htext, formatOf?, bind, Except.bind]

/-- A field is set from what stands in its place, whatever the readers of values make of
what stands there. -/
theorem reading_bind_map {α β : Type} {x : Except Error (α × Cursor)} {o : Option α}
    (f : α → β) (h : reading x = o.map (·, r)) :
    reading (do let (a, c) ← x; return (f a, c)) = (o.map f).map (·, r) := by
  cases o with
  | none =>
    obtain ⟨e, rfl⟩ := reading_eq_none_iff.mp h
    rfl
  | some a =>
    obtain ⟨c, rfl, rfl⟩ := reading_eq_some_iff.mp h
    rfl

theorem reading_readField (config : Config) (f : Field) (h : Says d t) (hb : Blank b)
    (hr : EndsNumeral r) (hc : c.rest = b ++ (t ++ r)) :
    reading (readField config f c) = (setField? config f d).map (·, r) := by
  cases f with
  | format =>
    have hread := reading_nullOr h hb hc fun _ => reading_readFormat h blank_nil
    exact reading_bind_map (fun v => { config with format := v }) hread
  | maxFileSize =>
    have hread := reading_nullOr h hb hc fun _ => reading_word64 h blank_nil hr
    exact reading_bind_map (fun v => { config with maxFileSize := v }) hread
  | time =>
    have hread := reading_nullOr h hb hc fun _ => reading_boolean h blank_nil
    exact reading_bind_map (fun v => { config with time := v }) hread

/-! ## All fields -/

theorem reading_readObject (config : Config) {first : Bool} (left : List Field)
    {fields : List (String × Document)} (h : Fields first fields t) (hc : c.rest = t ++ r) :
    reading (readObject config first left c) = (ofFields? config left fields).map (·, r) := by
  induction fields generalizing config first left t c with
  | nil =>
    cases h with
    | close hb =>
      obtain ⟨c₁, hkey, hrest⟩ :=
        reading_eq_some_iff.mp (reading_nextKey_close first hb (by simpa using hc))
      rw [readObject.eq_def]
      simp [hkey, rest_bump hrest, ofFields?, bind, Except.bind]
  | cons field fields ih =>
    cases h with
    | @cons _ k d _ l kt b b' t ts hl hk hb hb' hd hfields =>
      obtain ⟨c₁, hkey, hrest⟩ := reading_eq_some_iff.mp
        (reading_nextKey hl hk (r := b ++ ':' :: (b' ++ (t ++ (ts ++ r)))) (by simpa using hc))
      obtain ⟨c₂, hcolon, hrest⟩ := leaving_eq_some_iff.mp (leaving_colon hb hrest)
      rw [readObject.eq_def]
      cases hf : Field.ofName? k with
      | none => simp [hkey, hf, ofFields?, bind, Except.bind]
      | some f =>
        have hread := reading_readField config f hd hb' hfields.endsNumeral_append hrest
        by_cases hleft : f ∈ left
        case neg => simp [hkey, hf, hleft, ofFields?, bind, Except.bind]
        case pos =>
          cases hset : setField? config f d with
          | none =>
            rw [hset] at hread
            obtain ⟨e, herror⟩ := reading_eq_none_iff.mp hread
            simp [hkey, hf, hleft, hcolon, herror, hset, ofFields?, bind, Except.bind]
          | some config' =>
            rw [hset] at hread
            obtain ⟨c₃, hvalue, hrest⟩ := reading_eq_some_iff.mp hread
            simpa [hkey, hf, hleft, hcolon, hvalue, hset, ofFields?, bind, Except.bind] using
              ih _ _ hfields hrest

theorem reading_readList (config : Config) (n : Nat) (fields : List Field) {ds : List Document}
    (h : Elements (n == 0) ds t) (hc : c.rest = t ++ r) :
    reading (readList config n fields c) = (ofElements? config fields ds).map (·, r) := by
  induction fields generalizing config n ds t c with
  | nil =>
    cases h with
    | close hb =>
      obtain ⟨c₁, hend, rfl⟩ :=
        leaving_eq_some_iff.mp (leaving_listEnd hb (by simpa using hc))
      simp [readList, hend, ofElements?, bind, Except.bind]
    | cons hl hd =>
      obtain ⟨e, herror⟩ :=
        leaving_eq_none_iff.mp (leaving_listEnd_of_element hl hd (by simpa using hc))
      simp [readList, herror, ofElements?, bind, Except.bind]
  | cons f fields ih =>
    cases h with
    | close hb =>
      obtain ⟨c₁, hend, -⟩ :=
        reading_eq_some_iff.mp (reading_nextElement_close (n == 0) hb (by simpa using hc))
      simp [readList, hend, ofElements?, bind, Except.bind]
    | @cons _ d ds l t ts hl hd hds =>
      obtain ⟨c₁, hmore, hrest⟩ :=
        reading_eq_some_iff.mp (reading_nextElement hl hd (r := ts ++ r) (by simpa using hc))
      have hread :=
        reading_readField config f hd blank_nil hds.endsNumeral_append hrest
      cases hset : setField? config f d with
      | none =>
        rw [hset] at hread
        obtain ⟨e, herror⟩ := reading_eq_none_iff.mp hread
        simp [readList, hmore, herror, hset, ofElements?, bind, Except.bind]
      | some config' =>
        rw [hset] at hread
        obtain ⟨c₂, hvalue, hrest⟩ := reading_eq_some_iff.mp hread
        simpa [readList, hmore, hvalue, hset, ofElements?, bind, Except.bind] using
          ih _ _ (by simpa using hds) hrest

/-- Settings are read from a text as they are from the document that it says. -/
theorem read_of_writes {text : String} (h : Writes d text.toList) :
    (read text).toOption = ofDocument? d := by
  generalize hcs : text.toList = cs at h
  obtain @⟨b, t, b', hb, hd, hb'⟩ := h
  obtain ⟨f, u, c₁, htext, hvalue, hrest⟩ := exists_value (c := .ofText text.toList) hd hb hcs
  -- what is left after the settings is blank, so that nothing but them decides
  have hend : ∀ {x : Except Error (Config × Cursor)} {o : Option Config},
      reading x = o.map (·, b') →
      (x >>= fun p => if p.2.skipBlank.rest = [] then return p.1
        else p.2.skipBlank.failAhead .trailingCharacters).toOption = o := by
    intro x o hx
    cases o with
    | none =>
      obtain ⟨e, rfl⟩ := reading_eq_none_iff.mp hx
      rfl
    | some config =>
      obtain ⟨c, rfl, hc⟩ := reading_eq_some_iff.mp hx
      simp [rest_skipBlank_of_blank hb' hc, bind, Except.bind, pure, Except.pure, Except.toOption]
  cases hd with
  | array hds =>
    cases htext
    have hlist := hend (reading_readList unset 0 Field.all hds (rest_bump hrest))
    simpa [read, hvalue, ofDocument?, bind, Except.bind] using hlist
  | object hfields =>
    cases htext
    have hobject := hend (reading_readObject unset Field.all hfields (rest_bump hrest))
    simpa [read, hvalue, ofDocument?, bind, Except.bind] using hobject
  | nullWord | trueWord | falseWord | string =>
    cases htext
    obtain ⟨e, herror⟩ := exists_unexpected_eq_error (α := Config × Cursor) expectation c₁
    simp [read, hvalue, herror, ofDocument?, Except.toOption, bind, Except.bind]
  | number hx =>
    obtain ⟨e, herror⟩ := exists_unexpected_eq_error (α := Config × Cursor) expectation c₁
    simp [read, hvalue, hx.first_ne htext, herror, ofDocument?, Except.toOption, bind, Except.bind]

end SourceTokens.Config
