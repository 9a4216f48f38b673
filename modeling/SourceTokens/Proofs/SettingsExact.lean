/-
# `SourceTokens.Proofs.SettingsExact` — nothing but settings is read

The other direction of `Config.read_of_writes`.  Whatever a reader of settings accepts, it
has gone past a document (`Json.Passes`), so that settings are read from texts that the
grammar allows and from no others (`Config.read_eq_ok_iff_exists`).

What is read is then a matter of the document alone.  It gives a field a value or it does
not (`Config.Field.given?`), and the settings are what it gives, field by field
(`Config.eq_said`).
-/
import SourceTokens.Proofs.Json.Exact
import SourceTokens.Proofs.SettingsText

namespace SourceTokens.Json

/-- Between one cursor and the other stands a document, with blanks before it. -/
def Passes (c c' : Cursor) : Prop :=
  ∃ b d t, Blank b ∧ Says d t ∧ c.rest = b ++ (t ++ c'.rest)

variable {α : Type} {c c₁ c' : Cursor} {d : Document} {b ks t : List Char}

theorem Passes.of_skipBlank (h : Passes c.skipBlank c') : Passes c c' := by
  obtain ⟨b, hb, hrest⟩ := exists_blank c
  obtain ⟨b', d, t, hb', hd, hrest'⟩ := h
  exact ⟨b ++ b', d, t, hb.append hb', hd, by rw [hrest, hrest', List.append_assoc]⟩

theorem unexpected_ne_ok {expected : String} {a : α} : unexpected expected c ≠ .ok a := by
  obtain ⟨e, herror⟩ := exists_unexpected_eq_error (α := α) expected c
  rw [herror]
  rintro ⟨⟩

/-! ## Values -/

theorem passes_of_keyword {f : Char} (hw : Says d (f :: ks)) (hb : Blank b)
    (hopen : c.rest = b ++ f :: c₁.bump.rest) (h : keyword ks c₁.bump = .ok c') :
    Passes c c' :=
  ⟨b, d, _, hb, hw, by rw [hopen, rest_of_keyword h]; rfl⟩

/-- A value that is looked for begins with the character that is found. -/
theorem rest_of_value {f : Char} (h : value c = .ok (f, c₁)) :
    ∃ b, Blank b ∧ c.rest = b ++ f :: c₁.bump.rest := by
  obtain ⟨b, hb, hrest, hpeek⟩ := exists_of_value h
  exact ⟨b, hb, by rw [hrest, rest_of_peek hpeek]⟩

theorem passes_of_null (h : null c = .ok c') : Passes c c' := by
  obtain ⟨⟨f, c₁⟩, hvalue, h⟩ := bind_eq_ok_iff.mp h
  obtain ⟨b, hb, hopen⟩ := rest_of_value hvalue
  simp only at h
  split at h
  case isTrue hf => exact passes_of_keyword .nullWord hb (hf ▸ hopen) h
  case isFalse => exact absurd h unexpected_ne_ok

theorem passes_of_boolean {v : Bool} (h : boolean c = .ok (v, c')) : Passes c c' := by
  obtain ⟨⟨f, c₁⟩, hvalue, h⟩ := bind_eq_ok_iff.mp h
  obtain ⟨b, hb, hopen⟩ := rest_of_value hvalue
  simp only at h
  split at h
  case isTrue hf =>
    obtain ⟨c₂, hword, h⟩ := bind_eq_ok_iff.mp h
    cases h
    exact passes_of_keyword .trueWord hb (hf ▸ hopen) hword
  split at h
  case isTrue hf =>
    obtain ⟨c₂, hword, h⟩ := bind_eq_ok_iff.mp h
    cases h
    exact passes_of_keyword .falseWord hb (hf ▸ hopen) hword
  case isFalse => exact absurd h unexpected_ne_ok

theorem exists_of_string {expected s : String} (h : string expected c = .ok (s, c')) :
    ∃ b t, Blank b ∧ Spells t s.toList ∧ c.rest = b ++ '"' :: (t ++ '"' :: c'.rest) := by
  obtain ⟨⟨f, c₁⟩, hvalue, h⟩ := bind_eq_ok_iff.mp h
  obtain ⟨b, hb, hopen⟩ := rest_of_value hvalue
  simp only at h
  split at h
  case isTrue hf =>
    obtain ⟨t, u, ht, rfl, hrest⟩ := Quoted.exists_of_body h
    exact ⟨b, t, hb, by simpa using ht, by rw [hopen, hf, hrest]⟩
  case isFalse => exact absurd h unexpected_ne_ok

namespace Number

theorem integer_cursor {negative : Bool} {s : Scaled} {n : Nat}
    (h : integer negative s c = .ok (.natural n, c')) : c' = c := by
  rw [integer] at h
  split at h
  · exact absurd h plainDouble_ne
  · split at h
    · cases h; rfl
    · split at h
      · exact absurd h plainDouble_ne
      · cases h

/-- A natural number is read from its digits and from nothing else. -/
theorem exists_of_natural {negative : Bool} {n : Nat}
    (h : read negative c = .ok (.natural n, c')) :
    ∃ x : Numeral, x.WellFormed ∧ c.rest = x.text ++ c'.rest := by
  have hrest := digits_append c
  rw [read.eq_def] at h
  simp only at h
  generalize hds : (digits c).1 = ds at h hrest
  split at h
  case h_1 => cases h
  case h_2 => cases h
  case h_3 hne hzero =>
    have hwhole : Digits ds := hds ▸ digits_of_ne_nil (hds ▸ hne)
    split at h
    case isTrue =>
      obtain ⟨⟨s, c₁⟩, -, h⟩ := bind_eq_ok_iff.mp h
      simp only at h
      split at h
      · exact absurd h exponentPart_ne
      · exact absurd h plainDouble_ne
    case isFalse =>
      split at h
      case isTrue => exact absurd h exponentPart_ne
      case isFalse =>
        obtain rfl := integer_cursor h
        refine ⟨⟨false, ds, none, none⟩, ⟨hwhole, ?_, by simp, by simp⟩, ?_⟩
        · intro tail htail
          cases tail with
          | nil => rfl
          | cons d tail => exact absurd htail (hzero d tail)
        · simpa [Numeral.text, Numeral.fractionText, Numeral.exponentText] using hrest

end Number

/-- Only a natural number is worth 64 bits. -/
theorem read_natural_of_word64 {negative : Bool} {v : UInt64}
    (h : (do
      let (n, c) ← Number.read negative c
      match n with
      | .natural n => return (UInt64.ofNat n, c)
      | .negative _ => c.fail (.wrongValue n.found "u64")
      | .floating _ => c.fail (.wrongType n.found "u64")) = Except.ok (v, c')) :
    ∃ n, Number.read negative c = .ok (.natural n, c') := by
  obtain ⟨⟨n, c₁⟩, hread, h⟩ := bind_eq_ok_iff.mp h
  cases n with
  | natural n =>
    cases h
    exact ⟨n, hread⟩
  | negative | floating => cases h

theorem passes_of_word64 {v : UInt64} (h : word64 c = .ok (v, c')) : Passes c c' := by
  obtain ⟨⟨f, c₁⟩, hvalue, h⟩ := bind_eq_ok_iff.mp h
  obtain ⟨b, hb, hrest, -⟩ := exists_of_value hvalue
  simp only at h
  split at h
  case isTrue =>
    obtain ⟨n, hread⟩ := read_natural_of_word64 h
    cases (Number.natural_of_read hread).1
  split at h
  case isTrue =>
    obtain ⟨n, hread⟩ := read_natural_of_word64 h
    obtain ⟨x, hx, htext⟩ := Number.exists_of_natural hread
    exact ⟨b, _, _, hb, .number hx, by rw [hrest, htext]⟩
  case isFalse =>
    obtain ⟨p, hread, -⟩ := bind_eq_ok_iff.mp h
    exact absurd hread unexpected_ne_ok

theorem passes_of_nullOr {read : Cursor → Except Error (α × Cursor)} {v : Option α}
    (hread : ∀ {c a c'}, read c = .ok (a, c') → Passes c c') (h : nullOr read c = .ok (v, c')) :
    Passes c c' := by
  refine .of_skipBlank ?_
  simp only [nullOr] at h
  split at h
  case isTrue hpeek =>
    obtain ⟨c₁, hword, h⟩ := bind_eq_ok_iff.mp h
    cases h
    exact passes_of_keyword .nullWord blank_nil (rest_of_peek hpeek) hword
  case isFalse =>
    obtain ⟨⟨a, c₁⟩, hvalue, h⟩ := bind_eq_ok_iff.mp h
    cases h
    exact hread hvalue

theorem objectFault_ne_ok {f : Fault} {a : α} : objectFault f c ≠ .ok a := by
  rw [objectFault]
  split
  · rintro ⟨⟩
  · rintro ⟨⟩

theorem exists_of_listEnd (h : listEnd c = .ok c') :
    ∃ b, Blank b ∧ c.rest = b ++ ']' :: c'.rest := by
  obtain ⟨b, hb, hrest⟩ := exists_blank c
  simp only [listEnd] at h
  split at h
  next hpeek =>
    cases h
    exact ⟨b, hb, by rw [hrest, rest_of_peek hpeek]⟩
  all_goals cases h

end SourceTokens.Json

namespace SourceTokens.Config

open SourceTokens.Json

variable {c c' : Cursor} {config config' : Config} {d : Document}

/-! ## The texts that are read -/

theorem exists_of_readFormatName {f : Format} (h : readFormatName c = .ok (f, c')) :
    ∃ b t s, Blank b ∧ Spells t s ∧ c.rest = b ++ '"' :: (t ++ '"' :: c'.rest) := by
  obtain ⟨⟨s, c₁⟩, hstring, h⟩ := bind_eq_ok_iff.mp h
  obtain ⟨b, t, hb, ht, hrest⟩ := exists_of_string hstring
  simp only at h
  split at h
  case h_1 =>
    cases h
    exact ⟨b, t, _, hb, ht, hrest⟩
  case h_2 => cases h

theorem passes_of_readFormat {f : Format} (h : readFormat c = .ok (f, c')) : Passes c c' := by
  obtain ⟨⟨e, c₁⟩, hvalue, h⟩ := bind_eq_ok_iff.mp h
  obtain ⟨b, hb, hrest, hpeek⟩ := exists_of_value hvalue
  simp only at h
  split at h
  case isTrue =>
    obtain ⟨b', t, s, hb', ht, hname⟩ := exists_of_readFormatName h
    have hsays : Says (.string (.ofList s)) ('"' :: (t ++ ['"'])) := .string (by simpa using ht)
    exact ⟨b ++ b', _, _, hb.append hb', hsays, by rw [hrest, hname]; simp⟩
  split at h
  case isTrue hbrace =>
    obtain ⟨⟨f', c₂⟩, hname, h⟩ := bind_eq_ok_iff.mp h
    obtain ⟨c₃, hcolon, h⟩ := bind_eq_ok_iff.mp h
    obtain ⟨c₄, hnull, h⟩ := bind_eq_ok_iff.mp h
    obtain ⟨b₁, t, s, hb₁, ht, hrest₁⟩ := exists_of_readFormatName hname
    obtain ⟨b₂, hb₂, hrest₂⟩ := exists_of_colon hcolon
    obtain ⟨b₃, d, u, hb₃, hd, hrest₃⟩ := passes_of_null hnull
    obtain ⟨b₄, hb₄, hrest₄⟩ := exists_blank c₄
    simp only at h
    split at h
    case h_1 hclose =>
      cases h
      have hkey : Spells t (String.ofList s).toList := by simpa using ht
      have hfields := Fields.cons (.first hb₁) hkey hb₂ hb₃ hd (.close hb₄)
      refine ⟨b, _, _, hb, .object hfields, ?_⟩
      rw [hrest, rest_of_peek hpeek, hbrace, hrest₁, hrest₂, hrest₃, hrest₄, rest_of_peek hclose]
      simp
    case h_2 => cases h
    case h_3 => cases h
  case isFalse => cases h

theorem passes_of_readField {f : Field} (h : readField config f c = .ok (config', c')) :
    Passes c c' := by
  cases f with
  | format =>
    obtain ⟨⟨v, c₁⟩, hread, h⟩ := bind_eq_ok_iff.mp h
    cases h
    exact passes_of_nullOr passes_of_readFormat hread
  | maxFileSize =>
    obtain ⟨⟨v, c₁⟩, hread, h⟩ := bind_eq_ok_iff.mp h
    cases h
    exact passes_of_nullOr passes_of_word64 hread
  | time =>
    obtain ⟨⟨v, c₁⟩, hread, h⟩ := bind_eq_ok_iff.mp h
    cases h
    exact passes_of_nullOr passes_of_boolean hread

theorem exists_of_readObject {first : Bool} {left : List Field} {c : Cursor} {config : Config}
    (h : readObject config first left c = .ok (config', c')) :
    ∃ fields t, Fields first fields t ∧ c.rest = t ++ c'.rest := by
  rw [readObject.eq_def] at h
  obtain ⟨⟨key, c₁⟩, hkey, h⟩ := bind_eq_ok_iff.mp h
  rcases exists_of_nextKey hkey with ⟨k, l, kt, rfl, hl, hkt, hrest⟩ | ⟨rfl, b, hb, hrest⟩
  · simp only at h
    split at h
    case h_1 => exact absurd h objectFault_ne_ok
    case h_2 f hf =>
      split at h
      case isFalse => exact absurd h objectFault_ne_ok
      case isTrue hleft =>
        obtain ⟨c₂, hcolon, h⟩ := bind_eq_ok_iff.mp h
        obtain ⟨⟨config₁, c₃⟩, hfield, h⟩ := bind_eq_ok_iff.mp h
        obtain ⟨b, hb, hrest₁⟩ := exists_of_colon hcolon
        obtain ⟨b', d, t, hb', hd, hrest₂⟩ := passes_of_readField hfield
        have hfewer : (left.erase f).length < left.length := by
          have hpos := List.length_pos_of_mem hleft
          rw [List.length_erase_of_mem hleft]
          omega
        obtain ⟨fields, ts, hfields, hrest₃⟩ := exists_of_readObject h
        refine ⟨(k, d) :: fields, _, .cons hl hkt hb hb' hd hfields, ?_⟩
        rw [hrest, hrest₁, hrest₂, hrest₃]
        simp
  · cases h
    exact ⟨[], _, .close hb, by rw [hrest]; simp⟩
termination_by left.length

theorem exists_of_readList {n : Nat} {fields : List Field}
    (h : readList config n fields c = .ok (config', c')) :
    ∃ ds t, Elements (n == 0) ds t ∧ c.rest = t ++ c'.rest := by
  induction fields generalizing config n c with
  | nil =>
    obtain ⟨c₁, hend, h⟩ := bind_eq_ok_iff.mp h
    cases h
    obtain ⟨b, hb, hrest⟩ := exists_of_listEnd hend
    exact ⟨[], _, .close hb, by rw [hrest]; simp⟩
  | cons f fields ih =>
    rw [readList] at h
    obtain ⟨⟨more, c₁⟩, hnext, h⟩ := bind_eq_ok_iff.mp h
    cases more with
    | false => cases h
    | true =>
      obtain ⟨⟨config₁, c₂⟩, hfield, h⟩ := bind_eq_ok_iff.mp h
      obtain ⟨l, hl, hrest⟩ := exists_of_nextElement hnext
      obtain ⟨b, d, t, hb, hd, hrest₁⟩ := passes_of_readField hfield
      obtain ⟨ds, ts, hds, hrest₂⟩ := ih h
      exact ⟨d :: ds, _, .cons (hl.append_blank hb) hd (by simpa using hds),
        by simp [hrest, hrest₁, hrest₂]⟩

/-- Settings are a list or an object. -/
theorem exists_writes_of_read {text : String} (h : read text = .ok config) :
    ∃ d, Writes d text.toList := by
  obtain ⟨⟨f, c₁⟩, hvalue, h⟩ := bind_eq_ok_iff.mp h
  obtain ⟨b, hb, hopen⟩ := rest_of_value hvalue
  have hend : ∀ {d : Document} {t : List Char} {p : Config × Cursor} {g : Char}, f = g →
      Says d (g :: t) → c₁.bump.rest = t ++ p.2.rest →
      (if p.2.skipBlank.rest = [] then pure p.1
        else p.2.skipBlank.failAhead .trailingCharacters) = Except.ok config →
      ∃ d, Writes d text.toList := by
    rintro d t p g rfl hd hrest h
    split at h
    case isFalse => cases h
    case isTrue hnil =>
      obtain ⟨b', hb', hrest'⟩ := exists_blank p.2
      have htext : text.toList = b ++ (f :: t ++ b') := by
        rw [show text.toList = (Cursor.ofText text.toList).rest from rfl, hopen, hrest, hrest',
          hnil]
        simp
      exact ⟨d, htext ▸ .mk hb hd hb'⟩
  simp only at h
  split at h
  case isTrue hbracket =>
    obtain ⟨p, hlist, h⟩ := bind_eq_ok_iff.mp h
    obtain ⟨ds, t, hds, hrest⟩ := exists_of_readList hlist
    exact hend hbracket (.array hds) hrest h
  split at h
  case isTrue hbrace =>
    obtain ⟨p, hobject, h⟩ := bind_eq_ok_iff.mp h
    obtain ⟨fields, t, hfields, hrest⟩ := exists_of_readObject hobject
    exact hend hbrace (.object hfields) hrest h
  case isFalse =>
    obtain ⟨p, hread, -⟩ := bind_eq_ok_iff.mp h
    exact absurd hread unexpected_ne_ok

/-- Settings are read from the texts that write a document which says them. -/
theorem read_eq_ok_iff_exists {text : String} :
    read text = .ok config ↔ ∃ d, Writes d text.toList ∧ ofDocument? d = some config := by
  constructor
  · intro h
    obtain ⟨d, hd⟩ := exists_writes_of_read h
    exact ⟨d, hd, (read_eq_ok_iff hd).mp h⟩
  · rintro ⟨d, hd, hconfig⟩
    exact (read_eq_ok_iff hd).mpr hconfig

/-! ## What a document gives -/

/-- What a document gives for a field, if anything. -/
def Field.given? (f : Field) : Document → Option Document
  | .object fields => fields.lookup f.name
  | .array ds => (Field.all.zip ds).lookup f
  | _ => none

/-- The settings with what is given in the place of their own. -/
def amend (config : Config) (given : Field → Option Document) : Config :=
  ⟨(given .format).elim config.format formatOf?,
    (given .maxFileSize).elim config.maxFileSize Document.word64?,
    (given .time).elim config.time Document.boolean?⟩

/-- The settings that a document gives.  What is missing is left open, and so is what is
null. -/
def said (d : Document) : Config :=
  ⟨(Field.given? .format d).bind formatOf?, (Field.given? .maxFileSize d).bind Document.word64?,
    (Field.given? .time d).bind Document.boolean?⟩

theorem unset_amend (given : Field → Option Document) :
    unset.amend given = ⟨(given .format).bind formatOf?,
      (given .maxFileSize).bind Document.word64?, (given .time).bind Document.boolean?⟩ := by
  have helim : ∀ {α : Type} (d : Option Document) (g : Document → Option α),
      d.elim none g = d.bind g := by
    intro α d g
    cases d <;> rfl
  simp only [amend, unset, helim]

theorem amend_amend (config : Config) (given given' : Field → Option Document) :
    (config.amend given).amend given' = config.amend fun f => (given' f).or (given f) := by
  have helim : ∀ {α : Type} (d d' : Option Document) (a : α) (g : Document → α),
      d'.elim (d.elim a g) g = (d'.or d).elim a g := by
    intro α d d' a g
    cases d' <;> rfl
  simp only [amend, helim]

theorem eq_of_orNull? {α : Type} {f : Document → Option α} {v : Option α} (hnull : f .null = none)
    (h : d.orNull? f = some v) : v = f d := by
  by_cases hd : d = .null
  · subst hd
    cases h
    exact hnull.symm
  · rw [Document.orNull?_of_ne hd] at h
    obtain ⟨a, ha, rfl⟩ := Option.map_eq_some_iff.mp h
    exact ha.symm

theorem eq_amend_of_setField? {f : Field} (h : setField? config f d = some config') :
    config' = config.amend fun g => if g = f then some d else none := by
  cases f with
  | format =>
    obtain ⟨v, hv, rfl⟩ := Option.map_eq_some_iff.mp h
    obtain rfl := eq_of_orNull? rfl hv
    rfl
  | maxFileSize =>
    obtain ⟨v, hv, rfl⟩ := Option.map_eq_some_iff.mp h
    obtain rfl := eq_of_orNull? rfl hv
    rfl
  | time =>
    obtain ⟨v, hv, rfl⟩ := Option.map_eq_some_iff.mp h
    obtain rfl := eq_of_orNull? rfl hv
    rfl

/-- A key that is not repeated is looked up where it stands. -/
theorem lookup_cons_of_not_mem {α β : Type} [DecidableEq α] {k : α} {b : β} {l : List (α × β)}
    (hfresh : k ∉ l.map Prod.fst) (a : α) :
    ((k, b) :: l).lookup a = (l.lookup a).or (if a = k then some b else none) := by
  by_cases hak : a = k
  · subst hak
    have hnone : l.lookup a = none := by
      refine List.lookup_eq_none_iff.mpr fun p hp => ?_
      have hne : a ≠ p.1 := fun heq => hfresh (List.mem_map.mpr ⟨p, hp, heq.symm⟩)
      simpa using hne
    simp [hnone]
  · simp [List.lookup_cons, hak, beq_eq_false_iff_ne.mpr hak]

theorem eq_amend_of_ofFields? {left : List Field} {fields : List (String × Document)}
    (hleft : left.Nodup) (h : ofFields? config left fields = some config') :
    config' = config.amend fun f => fields.lookup f.name := by
  induction fields generalizing config left with
  | nil => cases h; rfl
  | cons p fields ih =>
    obtain ⟨hkeys, -⟩ := ofFields?_eq_some hleft h
    obtain ⟨hfresh, -⟩ := List.nodup_cons.mp hkeys
    obtain ⟨k, d⟩ := p
    rw [ofFields?] at h
    obtain ⟨f, hf, hfield⟩ := Option.bind_eq_some_iff.mp h
    obtain rfl := Field.ofName?_eq_some_iff.mp hf
    split at hfield
    case isFalse => cases hfield
    case isTrue hmem =>
      obtain ⟨config₁, hset, hrest⟩ := Option.bind_eq_some_iff.mp hfield
      have hname : ∀ g : Field, (g.name = f.name) = (g = f) := fun g =>
        propext ⟨Field.name_injective, congrArg Field.name⟩
      rw [ih (hleft.erase f) hrest, eq_amend_of_setField? hset, amend_amend]
      simp only [lookup_cons_of_not_mem hfresh, hname]

theorem eq_amend_of_ofElements? {fields : List Field} {ds : List Document} (hfields : fields.Nodup)
    (h : ofElements? config fields ds = some config') :
    config' = config.amend fun f => (fields.zip ds).lookup f := by
  induction fields generalizing config ds with
  | nil =>
    cases ds with
    | nil => cases h; rfl
    | cons => cases h
  | cons f fields ih =>
    cases ds with
    | nil => cases h
    | cons d ds =>
      obtain ⟨hfresh, hfields⟩ := List.nodup_cons.mp hfields
      obtain ⟨config₁, hset, hrest⟩ := Option.bind_eq_some_iff.mp h
      have hzip : f ∉ (fields.zip ds).map Prod.fst := by
        intro hmem
        obtain ⟨p, hp, rfl⟩ := List.mem_map.mp hmem
        exact hfresh (List.of_mem_zip hp).1
      rw [ih hfields hrest, eq_amend_of_setField? hset, amend_amend]
      simp only [List.zip_cons_cons, lookup_cons_of_not_mem hzip]

/-- Settings are what their document gives, field by field. -/
theorem eq_said (h : ofDocument? d = some config) : config = said d := by
  cases d with
  | object fields => exact (eq_amend_of_ofFields? (by decide) h).trans (unset_amend _)
  | array ds => exact (eq_amend_of_ofElements? (by decide) h).trans (unset_amend _)
  | null | boolean | number | string => cases h

end SourceTokens.Config
