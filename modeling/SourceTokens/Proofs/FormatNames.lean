/-
# `SourceTokens.Proofs.FormatNames` — a format has one name everywhere

A format is asked for by its name, on the command line as it stands and in settings as a
string of JSON, which can spell one name in many ways.  Both know the same names
(`Format.naming_of_literal`): all that settings see of a literal is the string that it says.  A
format is shown and written by its name as well.

A string that is no format's name is refused by both, and the refusal on the command line
holds it as it was given.  The one in settings need not: it is a fault at a place in the text.
-/
import SourceTokens.CommandLine
import SourceTokens.Proofs.SettingsText

namespace SourceTokens

open Json (FourDigits Says Spelling Spells Value Writes)

variable {s literal : String} {f : Format}

/-! ## Names -/

namespace Format

theorem read_eq_error (h : ∀ f, read s ≠ .ok f) : read s = .error ⟨s⟩ := by
  rw [read.eq_def] at h ⊢
  split
  case h_4 => rfl
  all_goals exact absurd rfl (h _)

theorem encode_eq (f : Format) : f.encode = "\"" ++ f.name ++ "\"" := by
  cases f <;> rfl

end Format

/-! ## In settings -/

namespace Config

/-- The text of settings that give a format and nothing else. -/
def formatText (literal : String) : String := "\x7b\"format\":" ++ literal ++ "\x7d"

theorem writes_formatText (h : Says (.string s) literal.toList) :
    Writes (.object [(Field.format.name, .string s)]) (formatText literal).toList := by
  have hkey := Json.Quoted.spells_encode Field.format.name.toList
  have hobject := Says.object (.cons (.first Json.blank_nil) hkey Json.blank_nil Json.blank_nil h
    (.close Json.blank_nil))
  have htext : (formatText literal).toList = '\x7b' :: ([] ++ '"' ::
      (Field.format.name.toList.flatMap Json.Quoted.encodeChar ++
        '"' :: ([] ++ ':' :: ([] ++ (literal.toList ++ ([] ++ ['\x7d'])))))) := by
    rw [formatText, String.toList_append, String.toList_append, List.append_assoc]
    rfl
  have hwrites := Writes.mk Json.blank_nil hobject Json.blank_nil
  rwa [List.nil_append, List.append_nil, ← htext] at hwrites

theorem ofDocument?_format (s : String) :
    ofDocument? (.object [(Field.format.name, .string s)])
      = (Format.ofKey? s).map fun f => ⟨some f, none, none⟩ := by
  have hset : setField? unset .format (.string s)
      = (Format.ofKey? s).map fun f => ⟨some f, none, none⟩ := by
    show ((Format.ofKey? s).map some).map _ = _
    rw [Option.map_map]
    rfl
  rw [ofDocument?, ofFields?, Field.ofName?_name]
  show (setField? unset .format (.string s)).bind some = _
  rw [hset, Option.bind_fun_some]

theorem read_formatText_eq_ok_iff (h : Says (.string s) literal.toList) {c : Config} :
    read (formatText literal) = .ok c
      ↔ ∃ f, Format.read s = .ok f ∧ c = ⟨some f, none, none⟩ := by
  rw [read_eq_ok_iff (writes_formatText h), ofDocument?_format, Option.map_eq_some_iff]
  constructor
  · rintro ⟨f, hf, rfl⟩
    exact ⟨f, Format.read_eq_ok_iff.mpr (Format.ofKey?_eq_some_iff.mp hf).symm, rfl⟩
  · rintro ⟨f, hf, rfl⟩
    exact ⟨f, Format.ofKey?_eq_some_iff.mpr (Format.read_eq_ok_iff.mp hf).symm, rfl⟩

theorem encode_of_format {c : Config} (h : c.format = some f) :
    ∃ rest, c.encode = "\x7b\"format\":" ++ f.encode ++ rest := by
  have hobject (fields : List (String × Value)) :
      (Value.object ((Field.format.name, .string f.key) :: fields)).compact
        = "\x7b\"format\":" ++ f.encode ++ (Value.writeFields .compact 0 fields ++ "\x7d") := by
    have hclosing : Value.Layout.compact.closing 0 = "" := rfl
    rw [Value.compact, Value.write, hclosing, String.append_empty, ← String.append_assoc]
    rfl
  rw [encode, toValue, h]
  exact ⟨_, hobject _⟩

end Config

/-! ## On the command line -/

namespace CommandLine

variable {o : Options}

theorem set_format (ho : o.format = none) (s : String) :
    set o .format s = match Format.read s with
      | .ok f => .ok { o with format := some f }
      | .error u => .error (.invalidValue "--format" u.name) := by
  have hset : set o .format s = match Format.read s with
      | .ok f => .ok { o with format := some f }
      | .error _ => .error (.invalidValue "--format" s) := by
    rw [set, ho]
    rfl
  rw [hset]
  cases h : Format.read s with
  | ok f => rfl
  | error u =>
    have hrefused : Format.read s = .error ⟨s⟩ := Format.read_eq_error (by rw [h]; nofun)
    cases h.symm.trans hrefused
    rfl

theorem toList_formatOption (s : String) :
    ("--format=" ++ s).toList = '-' :: '-' :: ("format".toList ++ '=' :: s.toList) := by
  rw [String.toList_append]
  rfl

theorem take_formatOption (o : Options) (s : String) :
    take o ("--format=" ++ s) = do return .reading (← set o .format s) := by
  have hvalue : String.ofList s.toList = s := String.ofList_toList
  rw [take, toList_formatOption]
  show takeLong o "format" (some (.ofList s.toList)) = _
  rw [hvalue]
  rfl

/-- The option takes what stands behind the equals sign for a name, whatever it is. -/
theorem readFrom_formatOption (ho : o.format = none) (s : String) (args : List String) :
    readFrom o (("--format=" ++ s) :: args) = match Format.read s with
      | .ok f => readFrom { o with format := some f } args
      | .error u => .error (.invalidValue "--format" u.name) := by
  have hdashes : "--format=" ++ s ≠ "--" := by
    intro h
    have htext := congrArg String.toList h
    rw [toList_formatOption] at htext
    cases htext
  rw [readFrom.eq_def]
  simp only [hdashes, if_false, take_formatOption, set_format ho]
  cases Format.read s <;> rfl

end CommandLine

/-! ## Everywhere -/

/-- What becomes of a string as the name of a format, if `literal` is JSON that says it. -/
structure Format.Naming (s literal : String) : Prop where
  /-- It is the name of the format that is shown as it, and of no other. -/
  read_iff : ∀ f : Format, read s = .ok f ↔ f.name = s
  /-- A name that is no format's is refused as it stands. -/
  refused : (∀ f : Format, read s ≠ .ok f) → read s = .error ⟨s⟩
  /-- Settings that give it are read if it is a format's. -/
  isOk_iff : (∃ f, read s = .ok f) ↔ ∃ c, Config.read (Config.formatText literal) = .ok c
  /-- They give the same format, and nothing else. -/
  config_iff : ∀ c, Config.read (Config.formatText literal) = .ok c ↔
    ∃ f, read s = .ok f ∧ c = ⟨some f, none, none⟩
  /-- The format is written as the string between quotes. -/
  encode_eq : ∀ f, read s = .ok f → f.encode = "\"" ++ s ++ "\""
  /-- So it is in settings. -/
  encode_config : ∀ (f : Format) (c : Config), read s = .ok f → c.format = some f →
    ∃ rest, c.encode = "\x7b\"format\":" ++ ("\"" ++ s ++ "\"") ++ rest
  /-- The option that takes the string reads it alike, and a refusal holds the string. -/
  option_eq : ∀ (o : Options) (args : List String), o.format = none →
    CommandLine.readFrom o (("--format=" ++ s) :: args) = match read s with
      | .ok f => CommandLine.readFrom { o with format := some f } args
      | .error u => .error (.invalidValue "--format" u.name)

/-- Whatever the spelling, settings know a format by the same names as the command line. -/
theorem Format.naming_of_literal (h : Says (.string s) literal.toList) : Naming s literal where
  read_iff f := read_eq_ok_iff
  refused := read_eq_error
  isOk_iff := by
    simp only [Config.read_formatText_eq_ok_iff h]
    constructor
    · rintro ⟨f, hf⟩
      exact ⟨_, f, hf, rfl⟩
    · rintro ⟨_, f, hf, -⟩
      exact ⟨f, hf⟩
  config_iff c := Config.read_formatText_eq_ok_iff h
  encode_eq f hf := by
    rw [Format.encode_eq, read_eq_ok_iff.mp hf]
  encode_config f c hf hc := by
    rw [← read_eq_ok_iff.mp hf, ← Format.encode_eq]
    exact Config.encode_of_format hc
  option_eq o args ho := CommandLine.readFrom_formatOption ho s args

/-- Half of a name may be escapes, in either case of the digits.  A pair of surrogates is one
character, in no format's name; the refusal holds that character. -/
theorem Format.naming_of_literal_escaped :
    (Says (.string "json") "\"\\u006as\\u006Fn\"".toList ∧ read "json" = .ok json ∧
      Config.read (Config.formatText "\"\\u006as\\u006Fn\"") = .ok ⟨some json, none, none⟩) ∧
    (Says (.string "😀") "\"\\ud83d\\uDE00\"".toList ∧ read "😀" = .error ⟨"😀"⟩ ∧
      ∀ c, Config.read (Config.formatText "\"\\ud83d\\uDE00\"") ≠ .ok c) := by
  constructor
  · have hj : Spelling ['\\', 'u', '0', '0', '6', 'a'] 'j' := .unit ⟨rfl, rfl⟩ (.inl (by decide))
    have hs : Spelling ['s'] 's' := Json.Quoted.spelling_encodeChar 's'
    have ho : Spelling ['\\', 'u', '0', '0', '6', 'F'] 'o' := .unit ⟨rfl, rfl⟩ (.inl (by decide))
    have hn : Spelling ['n'] 'n' := Json.Quoted.spelling_encodeChar 'n'
    have hspells : Spells "\\u006as\\u006Fn".toList "json".toList :=
      .cons hj (.cons hs (.cons ho (.cons hn .nil)))
    have hliteral : Says (.string "json") "\"\\u006as\\u006Fn\"".toList := Says.string hspells
    have hnaming := naming_of_literal hliteral
    have hread : read "json" = .ok json := (hnaming.read_iff json).mpr rfl
    exact ⟨hliteral, hread, (hnaming.config_iff _).mpr ⟨json, hread, rfl⟩⟩
  · have hleading : FourDigits ['d', '8', '3', 'd'] 0xd83d := ⟨rfl, rfl⟩
    have htrailing : FourDigits ['D', 'E', '0', '0'] 0xde00 := ⟨rfl, rfl⟩
    have hpair := Spelling.pair hleading htrailing (by decide) (by decide)
    have hchar : Char.ofNat ((0xd83d - 0xd800) * 0x400 + (0xde00 - 0xdc00) + 0x10000) = '😀' := by
      decide
    rw [hchar] at hpair
    have hspells : Spells "\\ud83d\\uDE00".toList "😀".toList := .cons hpair .nil
    have hliteral : Says (.string "😀") "\"\\ud83d\\uDE00\"".toList := Says.string hspells
    have hnaming := naming_of_literal hliteral
    have hnone : ∀ f : Format, read "😀" ≠ .ok f := by
      intro f hf
      have hname := (hnaming.read_iff f).mp hf
      cases f <;> exact absurd hname (by decide)
    refine ⟨hliteral, hnaming.refused hnone, ?_⟩
    intro c hc
    obtain ⟨f, hf⟩ := hnaming.isOk_iff.mpr ⟨c, hc⟩
    exact hnone f hf

end SourceTokens
