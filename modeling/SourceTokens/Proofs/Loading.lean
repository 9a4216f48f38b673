/-
# `SourceTokens.Proofs.Loading` — the text that a file is loaded as

A file that is not over the limit is loaded whatever it holds.  Its octets are read as
text, and where text is on either side of other octets it is read as it stands: the octets
between have a reading of their own, in which each bad stretch is one replacement
character (`SourceFile.load_isFile`).  A file over the limit is refused by its size, and
what it holds has no part in that.
-/
import SourceTokens.Files.Tree
import SourceTokens.Proofs.Program
import SourceTokens.Proofs.Text.Utf8

namespace SourceTokens

open Text.Utf8

variable {fs : FileSystem} {path : String} {octets : List UInt8} {limit : Option UInt64}

/-! ## Strict decoding -/

namespace Text.Utf8

theorem decode?_eq_some_iff {s : String} : decode? octets = some s ↔ octets = encode s := by
  rw [decode?, Option.map_eq_some_iff]
  constructor
  · rintro ⟨cs, hcs, rfl⟩
    have hcut := cut_units octets
    rw [mapM_id_eq_some_iff.mp hcs] at hcut
    rw [encode_eq, String.toList_ofList]
    exact octets_of_cut_chars hcut
  · rintro rfl
    exact ⟨s.toList, mapM_id_eq_some_iff.mpr (units_encode s), String.ofList_toList⟩

/-- Octets among text are text if all of it is. -/
theorem exists_encode_of_append {s s' t : String}
    (h : encode s ++ octets ++ encode s' = encode t) : ∃ t', octets = encode t' := by
  have hunits := congrArg units h
  rw [List.append_assoc, units_encode_append, units_append octets not_contains_tail_of_encode,
    units_encode, units_encode] at hunits
  obtain ⟨-, cs, -, -, hcs⟩ := List.map_eq_append_iff.mp hunits.symm
  obtain ⟨cs, -, -, hcs, -⟩ := List.map_eq_append_iff.mp hcs
  have hcut := cut_units octets
  rw [← hcs] at hcut
  refine ⟨.ofList cs, ?_⟩
  rw [encode_eq, String.toList_ofList]
  exact octets_of_cut_chars hcut

end Text.Utf8

/-! ## Files -/

/-- A path leads to a file that holds these octets, and has their number for its size. -/
structure FileSystem.IsFile (fs : FileSystem) (path : String) (octets : List UInt8) : Prop where
  read : fs.read path = .ok octets
  size : fs.size path = .ok octets.length

theorem FileTree.isFile_of_find {t : FileTree} (h : t.find path = .ok (.file octets)) :
    t.toFileSystem.IsFile path octets := by
  constructor
  · show t.find path >>= _ = _
    rw [h]
    rfl
  · show t.find path >>= _ = _
    rw [h]
    rfl

namespace SourceFile

theorem load_of_length_le (h : fs.IsFile path octets)
    (hlimit : ∀ l ∈ limit, octets.length ≤ l.toNat) :
    load fs path limit = .ok (ofOctets path octets) := by
  have hfits : limit.all fun l => (fs.size path).toOption.any (· ≤ l.toNat) := by
    simpa [Option.all_eq_true, h.size, Except.toOption] using hlimit
  rw [← toOption_eq_some_iff, Run.toOption_load, if_pos hfits, h.read]
  rfl

theorem load_of_lt_length (h : fs.IsFile path octets) {l : UInt64}
    (hlt : l.toNat < octets.length) :
    load fs path (some l) = .error (.tooLarge path octets.length l.toNat) := by
  have hcheck : checkSize fs path l = .error (.tooLarge path octets.length l.toNat) := by
    rw [checkSize, h.size]
    show (if l.toNat < octets.length then _ else _) = _
    rw [if_pos hlt]
    rfl
  show checkSize fs path l >>= _ = _
  rw [hcheck]
  rfl

theorem repaired_ofOctets : (ofOctets path octets).repaired = false ↔ ∃ s, octets = encode s := by
  simp only [← decode?_eq_some_iff]
  rw [ofOctets]
  cases decode? octets <;> simp

/-- Loading of files.  A file within the limit is loaded.  If it holds octets between two
texts, these are loaded as they are and the octets as a text that depends on nothing else;
none of it is replaced just if the octets are those of a text.  A file over the limit is
refused with its size and the limit, whatever it holds.  The octets of a text are read as
that text.  Any octets can be cut in one way into characters and bad stretches, and each of
the latter is read as one replacement character. -/
theorem load_isFile :
    (∀ (fs : FileSystem) (path : String) (limit : Option UInt64) (s : String)
        (octets : List UInt8) (s' : String),
      fs.IsFile path (encode s ++ octets ++ encode s') →
      (∀ l ∈ limit, (encode s ++ octets ++ encode s').length ≤ l.toNat) →
      ∃ f : SourceFile, load fs path limit = .ok f ∧ f.path = path ∧
        f.text = s ++ decodeLenient octets ++ s' ∧
        (f.repaired = false ↔ ∃ t, octets = encode t)) ∧
    (∀ (fs : FileSystem) (path : String) (l : UInt64) (octets : List UInt8),
      fs.IsFile path octets → l.toNat < octets.length →
      load fs path (some l) = .error (.tooLarge path octets.length l.toNat)) ∧
    (∀ s, decodeLenient (encode s) = s) ∧
    ∀ octets, ∃ us, Cut octets us ∧ (∀ us', Cut octets us' → us' = us) ∧
      decodeLenient octets = .ofList (us.map (·.getD '\ufffd')) := by
  refine ⟨?within, ?beyond, decodeLenient_encode, ?cut⟩
  case within =>
    intro fs path limit s octets s' h hlimit
    refine ⟨_, load_of_length_le h hlimit, path_ofOctets .., ?_, ?_⟩
    · rw [text_ofOctets, decodeLenient_append]
    · rw [repaired_ofOctets]
      constructor
      · rintro ⟨t, ht⟩
        exact exists_encode_of_append ht
      · rintro ⟨t, rfl⟩
        exact ⟨s ++ t ++ s', by rw [encode_append, encode_append]⟩
  case beyond =>
    intro fs path l octets h hlt
    exact load_of_lt_length h hlt
  case cut =>
    intro octets
    exact ⟨units octets, cut_units octets, fun us => cut_iff.mp, rfl⟩

/-- The first three octets of a character of four, between two texts. -/
theorem load_isFile_cutShort :
    let octets : List UInt8 := [0xc3, 0xa9, 0xf0, 0x9f, 0x98, 0x6f, 0x6b]
    let fs := (FileTree.empty.addFile "a" octets).toFileSystem
    fs.IsFile "a" octets ∧ octets.length = 7 ∧
      (∃ f, load fs "a" (some 7) = .ok f ∧ f.text = "é\ufffdok" ∧ f.repaired = true) ∧
      load fs "a" (some 6) = .error (.tooLarge "a" 7 6) := by
  intro octets fs
  obtain ⟨hwithin, hbeyond, -⟩ := load_isFile
  have hfile : fs.IsFile "a" octets := FileTree.isFile_of_find (by decide +kernel)
  have hoctets : octets = encode "é" ++ [0xf0, 0x9f, 0x98] ++ encode "ok" := by
    rw [encode_eq, encode_eq]
    decide +kernel
  have hwhole : fs.IsFile "a" (encode "é" ++ [0xf0, 0x9f, 0x98] ++ encode "ok") := by
    rwa [← hoctets]
  have hlimit : ∀ l ∈ some (7 : UInt64),
      (encode "é" ++ [0xf0, 0x9f, 0x98] ++ encode "ok").length ≤ l.toNat := by
    intro l hl
    obtain rfl := Option.some.inj hl
    rw [← hoctets]
    decide
  obtain ⟨f, hload, -, htext, hrepaired⟩ := hwithin fs "a" _ _ _ _ hwhole hlimit
  refine ⟨hfile, rfl, ⟨f, hload, ?text, ?repaired⟩, hbeyond fs "a" 6 octets hfile (by decide)⟩
  case text =>
    rw [htext]
    decide +kernel
  case repaired =>
    have hnone : decode? [0xf0, 0x9f, 0x98] = none := by decide +kernel
    rw [← Bool.not_eq_false, hrepaired]
    rintro ⟨t, ht⟩
    rw [decode?_eq_some_iff.mpr ht] at hnone
    cases hnone

end SourceFile

end SourceTokens
