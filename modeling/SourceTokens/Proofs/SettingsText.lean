/-
# `SourceTokens.Proofs.SettingsText` — settings as text

Settings are read back from what is written of them, and from any other object that gives
each field that is set its value, in whatever order, spelling and layout
(`Config.read_text`).  An object is refused if it repeats a key, has one that is no
field's, or gives a number that 64 bits without a sign cannot hold.

`Config.fieldDocument` is what is said of one field.  It is all there is to know of
settings (`Config.ext_fieldDocument`), so that the fields can be dealt with alike.
-/
import SourceTokens.Proofs.Json.Written
import SourceTokens.Proofs.Settings

namespace SourceTokens.Config

open SourceTokens.Json

namespace Field

theorem ofName?_name (f : Field) : ofName? f.name = some f := by
  cases f <;> rfl

theorem ofName?_eq_some_iff {s : String} {f : Field} : ofName? s = some f ↔ s = f.name := by
  constructor
  · intro h
    have hname : f.name = s := by simpa using List.find?_some h
    exact hname.symm
  · rintro rfl
    exact ofName?_name f

theorem name_injective {f g : Field} (h : f.name = g.name) : f = g := by
  have hname := ofName?_name f
  rw [h, ofName?_name] at hname
  exact (Option.some.inj hname).symm

theorem mem_all (f : Field) : f ∈ all := by
  cases f <;> decide

end Field

/-- What is said of a field. -/
def fieldDocument (c : Config) : Field → Document
  | .format => (c.format.map fun f => Document.string f.name).getD .null
  | .maxFileSize => (c.maxFileSize.map fun n => Document.number (.ofNat n.toNat)).getD .null
  | .time => (c.time.map Document.boolean).getD .null

variable {c config config' : Config} {d : Document} {left : List Field}
  {fields : List (String × Document)}

/-! ## A field that is set -/

theorem word64?_ofNat (n : UInt64) :
    (Document.number (.ofNat n.toNat)).word64? = some n := by
  have hmagnitude : (Numeral.ofNat n.toNat).magnitude = n.toNat := by
    simp [Numeral.magnitude, Numeral.ofNat]
  have hfits : (Numeral.ofNat n.toNat).negative = false ∧ (Numeral.ofNat n.toNat).IsInteger ∧
      n.toNat < UInt64.size := ⟨rfl, ⟨rfl, rfl⟩, n.toNat_lt_size⟩
  rw [Document.word64?, hmagnitude, if_pos hfits, UInt64.ofNat_toNat]

theorem formatOf?_fieldDocument (c : Config) :
    (c.fieldDocument .format).orNull? formatOf? = some c.format := by
  cases h : c.format <;>
    simp [fieldDocument, h, Document.orNull?, formatOf?, Format.ofKey?_name]

theorem word64?_fieldDocument (c : Config) :
    (c.fieldDocument .maxFileSize).orNull? Document.word64? = some c.maxFileSize := by
  cases h : c.maxFileSize <;> simp [fieldDocument, h, Document.orNull?, word64?_ofNat]

theorem boolean?_fieldDocument (c : Config) :
    (c.fieldDocument .time).orNull? Document.boolean? = some c.time := by
  cases h : c.time <;> simp [fieldDocument, h, Document.orNull?, Document.boolean?]

/-- Settings of which the same is said are the same. -/
theorem ext_fieldDocument (h : ∀ f, c.fieldDocument f = config.fieldDocument f) :
    c = config := by
  have hformat := formatOf?_fieldDocument c
  have hlimit := word64?_fieldDocument c
  have htime := boolean?_fieldDocument c
  rw [h, formatOf?_fieldDocument] at hformat
  rw [h, word64?_fieldDocument] at hlimit
  rw [h, boolean?_fieldDocument] at htime
  cases c
  cases config
  simp_all

/-- Setting a field to what is said of it copies the field. -/
theorem setField?_fieldDocument (config c : Config) (f : Field) :
    ∃ config', setField? config f (c.fieldDocument f) = some config' ∧ ∀ g,
      config'.fieldDocument g
        = if g = f then c.fieldDocument g else config.fieldDocument g := by
  cases f with
  | format =>
    refine ⟨{ config with format := c.format }, by rw [setField?, formatOf?_fieldDocument]; rfl, ?_⟩
    intro g
    cases g <;> rfl
  | maxFileSize =>
    refine ⟨{ config with maxFileSize := c.maxFileSize },
      by rw [setField?, word64?_fieldDocument]; rfl, ?_⟩
    intro g
    cases g <;> rfl
  | time =>
    refine ⟨{ config with time := c.time }, by rw [setField?, boolean?_fieldDocument]; rfl, ?_⟩
    intro g
    cases g <;> rfl

/-! ## Objects that say settings -/

/-- The fields that an object names are copied, the others stay as they are. -/
theorem ofFields?_of_fieldDocument (config : Config) (hkeys : (fields.map Prod.fst).Nodup)
    (hvalues : ∀ p ∈ fields, ∃ f ∈ left, p = (f.name, c.fieldDocument f)) :
    ∃ config', ofFields? config left fields = some config' ∧ ∀ f, config'.fieldDocument f
      = if f.name ∈ fields.map Prod.fst then c.fieldDocument f else config.fieldDocument f := by
  induction fields generalizing config left with
  | nil => exact ⟨config, rfl, by simp⟩
  | cons p fields ih =>
    obtain ⟨f, hf, rfl⟩ := hvalues p (by simp)
    obtain ⟨hfresh, hkeys⟩ := List.nodup_cons.mp hkeys
    obtain ⟨config₁, hset, hconfig₁⟩ := setField?_fieldDocument config c f
    have hrest : ∀ p ∈ fields, ∃ g ∈ left.erase f, p = (g.name, c.fieldDocument g) := by
      intro p hp
      obtain ⟨g, hg, rfl⟩ := hvalues p (by simp [hp])
      have hne : g ≠ f := by
        rintro rfl
        exact hfresh (List.mem_map.mpr ⟨_, hp, rfl⟩)
      exact ⟨g, (List.mem_erase_of_ne hne).mpr hg, rfl⟩
    obtain ⟨config', hfields, hconfig'⟩ := ih config₁ hkeys hrest
    refine ⟨config', by simp [ofFields?, Field.ofName?_name, hf, hset, hfields], ?_⟩
    intro g
    rw [hconfig', hconfig₁]
    by_cases hgf : g = f
    · simp [hgf]
    · have hname : g.name ≠ f.name := fun heq => hgf (Field.name_injective heq)
      simp only [if_neg hgf, List.map_cons, List.mem_cons, hname, false_or]

/-! ## Objects that say none -/

/-- An object that says settings names some of the fields that are left, each once, and
gives each a value that it can have. -/
theorem ofFields?_eq_some (hleft : left.Nodup)
    (h : ofFields? config left fields = some config') :
    (fields.map Prod.fst).Nodup ∧ ∀ p ∈ fields, ∃ f ∈ left, p.1 = f.name ∧
      ∃ config, (setField? config f p.2).isSome := by
  induction fields generalizing config left with
  | nil => simp
  | cons p fields ih =>
    obtain ⟨k, d⟩ := p
    rw [ofFields?] at h
    obtain ⟨f, hf, hfield⟩ := Option.bind_eq_some_iff.mp h
    obtain rfl := Field.ofName?_eq_some_iff.mp hf
    split at hfield
    case isFalse => cases hfield
    case isTrue hmem =>
      obtain ⟨config₁, hset, hrest⟩ := Option.bind_eq_some_iff.mp hfield
      obtain ⟨hkeys, hfields⟩ := ih (hleft.erase f) hrest
      refine ⟨List.nodup_cons.mpr ⟨?_, hkeys⟩, ?_⟩
      · intro hagain
        obtain ⟨p, hp, hname⟩ := List.mem_map.mp hagain
        obtain ⟨g, hg, hgname, -⟩ := hfields p hp
        obtain rfl := Field.name_injective (hgname.symm.trans hname)
        exact hleft.not_mem_erase hg
      · intro p hp
        rcases List.mem_cons.mp hp with rfl | hp
        · exact ⟨f, hmem, rfl, config, by simp [hset]⟩
        · obtain ⟨g, hg, hvalue⟩ := hfields p hp
          exact ⟨g, List.mem_of_mem_erase hg, hvalue⟩

/-! ## Texts -/

theorem read_eq_ok_iff {text : String} (h : Writes d text.toList) :
    read text = .ok c ↔ ofDocument? d = some c := by
  rw [← read_of_writes h]
  cases read text <;> simp [Except.toOption]

theorem exists_read_eq_error {text : String} (h : Writes d text.toList)
    (hnone : ofDocument? d = none) : ∃ e, read text = .error e := by
  have hread := read_of_writes h
  cases hx : read text with
  | error e => exact ⟨e, rfl⟩
  | ok c =>
    rw [hx, hnone] at hread
    cases hread

theorem ofDocument?_of_fieldDocument (hkeys : (fields.map Prod.fst).Nodup)
    (hvalues : ∀ p ∈ fields, ∃ f : Field, p = (f.name, c.fieldDocument f))
    (hset : ∀ f : Field, c.fieldDocument f ≠ .null → f.name ∈ fields.map Prod.fst) :
    ofDocument? (.object fields) = some c := by
  have hall : ∀ p ∈ fields, ∃ f ∈ Field.all, p = (f.name, c.fieldDocument f) := by
    intro p hp
    obtain ⟨f, rfl⟩ := hvalues p hp
    exact ⟨f, f.mem_all, rfl⟩
  obtain ⟨config', hfields, hconfig'⟩ := ofFields?_of_fieldDocument unset hkeys hall
  have heq : config' = c := by
    refine ext_fieldDocument fun f => ?_
    rw [hconfig']
    split
    case isTrue => rfl
    case isFalse hmissing =>
      have hnull : c.fieldDocument f = .null := by
        by_contra hne
        exact hmissing (hset f hne)
      rw [hnull]
      cases f <;> rfl
  rw [ofDocument?, hfields, heq]

/-- What is written of settings is an object of all fields. -/
theorem writes_encode (c : Config) :
    Writes (.object (Field.all.map fun f => (f.name, c.fieldDocument f))) c.encode.toList := by
  have hdocument : c.toValue.document
      = .object (Field.all.map fun f => (f.name, c.fieldDocument f)) := by
    obtain ⟨format, limit, time⟩ := c
    rw [toValue, funext fun f => congrArg Value.string (Format.key_eq_name f)]
    cases format <;> cases limit <;> cases time <;> rfl
  have hsays := Value.says_write Value.Layout.isBlank_compact 0 c.toValue
  rw [hdocument] at hsays
  simpa [encode, Value.compact] using Writes.mk blank_nil hsays blank_nil

/-- A number that 64 bits without a sign cannot hold is the value of no field. -/
theorem setField?_number_eq_none {x : Numeral} (f : Field)
    (hrange : x.negative = true ∨ UInt64.size ≤ x.magnitude) :
    setField? config f (.number x) = none := by
  cases f with
  | format | time => rfl
  | maxFileSize =>
    have hfits : ¬ (x.negative = false ∧ x.IsInteger ∧ x.magnitude < UInt64.size) := by
      rintro ⟨hnegative, -, hlt⟩
      rcases hrange with hrange | hrange
      · simp [hnegative] at hrange
      · omega
    rw [setField?, Document.orNull?_of_ne (by simp), Document.word64?, if_neg hfits]
    rfl

/-- Settings and their texts.  What is written of settings is read back.  So is every
object, however it is laid out, that names no field twice, gives each that it names the
value that the settings have, null if they have none, and names all that are set.  An
object with a repeated key or a key of no field is refused, whatever its values are; so is
one that gives a key a number with a sign or of more than 64 bits. -/
theorem read_text (c : Config) :
    read c.encode = .ok c ∧
    (∀ (fields : List (String × Document)) (text : String),
      Writes (.object fields) text.toList → (fields.map Prod.fst).Nodup →
      (∀ p ∈ fields, ∃ f : Field, p = (f.name, c.fieldDocument f)) →
      (∀ f : Field, c.fieldDocument f ≠ .null → f.name ∈ fields.map Prod.fst) →
      read text = .ok c) ∧
    (∀ (fields : List (String × Document)) (text : String),
      Writes (.object fields) text.toList →
      ¬ (fields.map Prod.fst).Nodup ∨ (∃ p ∈ fields, ∀ f : Field, p.1 ≠ f.name) →
      ∃ e, read text = .error e) ∧
    (∀ (fields : List (String × Document)) (text k : String) (x : Numeral),
      Writes (.object fields) text.toList → (k, .number x) ∈ fields →
      x.negative = true ∨ UInt64.size ≤ x.magnitude → ∃ e, read text = .error e) := by
  have hnone : ∀ {fields : List (String × Document)},
      (∀ config', ofFields? unset Field.all fields = some config' → False) →
      ofDocument? (.object fields) = none := by
    intro fields h
    exact Option.eq_none_iff_forall_ne_some.mpr fun config' => h config'
  refine ⟨?written, ?any, ?keys, ?range⟩
  case written =>
    have hkeys : (Field.all.map fun f => (f.name, c.fieldDocument f)).map Prod.fst
        = Field.all.map Field.name := by simp [Function.comp_def]
    refine (read_eq_ok_iff c.writes_encode).mpr (ofDocument?_of_fieldDocument ?_ ?_ ?_)
    · rw [hkeys]
      decide
    · intro p hp
      obtain ⟨f, -, rfl⟩ := List.mem_map.mp hp
      exact ⟨f, rfl⟩
    · intro f _
      rw [hkeys]
      exact List.mem_map_of_mem f.mem_all
  case any =>
    intro fields text htext hkeys hvalues hset
    exact (read_eq_ok_iff htext).mpr (ofDocument?_of_fieldDocument hkeys hvalues hset)
  case keys =>
    intro fields text htext hbad
    refine exists_read_eq_error htext (hnone fun config' hconfig' => ?_)
    obtain ⟨hkeys, hfields⟩ := ofFields?_eq_some (by decide) hconfig'
    rcases hbad with hrepeated | ⟨p, hp, hunknown⟩
    · exact hrepeated hkeys
    · obtain ⟨f, -, hname, -⟩ := hfields p hp
      exact hunknown f hname
  case range =>
    intro fields text k x htext hnumber hrange
    refine exists_read_eq_error htext (hnone fun config' hconfig' => ?_)
    obtain ⟨-, hfields⟩ := ofFields?_eq_some (by decide) hconfig'
    obtain ⟨f, -, -, config, hset⟩ := hfields _ hnumber
    rw [setField?_number_eq_none f hrange] at hset
    cases hset

/-- Two fields in the other order and with blanks in between are read; a key that is
repeated and a limit of 65 bits are refused. -/
theorem read_text_blanks :
    read "\x7b \"time\":true,\n\"maxFileSize\" : 5\x7d" = .ok ⟨none, some 5, some true⟩ ∧
      (∃ e, read "\x7b\"time\":true,\"time\":null\x7d" = .error e) ∧
      ∃ e, read "\x7b\"maxFileSize\":18446744073709551616\x7d" = .error e := by
  obtain ⟨-, hany, hkeys, hrange⟩ := read_text ⟨none, some 5, some true⟩
  have htime := Quoted.spells_encode "time".toList
  have hlimit := Quoted.spells_encode "maxFileSize".toList
  have hspace : Blank [' '] := by decide
  have hnewline : Blank ['\n'] := by decide
  have hblanks := Writes.mk blank_nil (.object
    (.cons (.first hspace) htime blank_nil blank_nil .trueWord
      (.cons (.later blank_nil hnewline) hlimit hspace hspace (.number (wellFormed_ofNat 5))
        (.close blank_nil)))) blank_nil
  have hrepeated := Writes.mk blank_nil (.object
    (.cons (.first blank_nil) htime blank_nil blank_nil .trueWord
      (.cons (.later blank_nil blank_nil) htime blank_nil blank_nil .nullWord
        (.close blank_nil)))) blank_nil
  have hbeyond := Writes.mk blank_nil (.object
    (.cons (.first blank_nil) hlimit blank_nil blank_nil
      (.number (wellFormed_ofNat 18446744073709551616)) (.close blank_nil))) blank_nil
  refine ⟨hany _ _ hblanks (by decide) ?values ?set,
    hkeys _ _ hrepeated (.inl (by decide)),
    hrange _ _ "maxFileSize" (.ofNat 18446744073709551616) hbeyond (by simp) (.inr ?range)⟩
  case values =>
    intro p hp
    rcases List.mem_pair.mp hp with rfl | rfl
    · exact ⟨.time, rfl⟩
    · exact ⟨.maxFileSize, rfl⟩
  case set =>
    intro f hf
    cases f with
    | format => exact absurd rfl hf
    | maxFileSize | time => decide
  case range => simp [Numeral.magnitude, Numeral.ofNat]

end SourceTokens.Config
