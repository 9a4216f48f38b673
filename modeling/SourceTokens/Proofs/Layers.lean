/-
# `SourceTokens.Proofs.Layers` — settings in any number of layers

Laying settings on top of each other is associative, and settings that set nothing are its
identity.  So layers may be put together in any order of grouping (`Layers.merged_eq`), and
what comes of them is decided field by field: a field has the value of the last layer that
sets it (`Config.merge_last`).  No field has a part in another, for all that is known of
them is how one layer goes on top of another (`Config.get_merge`).
-/
import Mathlib.Data.List.Induction
import SourceTokens.Config.Reader

namespace SourceTokens

namespace Config

/-- What a field can be set to. -/
def Field.Value : Field → Type
  | .format => Format
  | .maxFileSize => UInt64
  | .time => Bool

/-- What a field is set to. -/
def get (c : Config) : (f : Field) → Option f.Value
  | .format => c.format
  | .maxFileSize => c.maxFileSize
  | .time => c.time

variable {c : Config} {cs before after : List Config} {f : Field} {v : f.Value}

theorem get_unset (f : Field) : unset.get f = none := by
  cases f <;> rfl

theorem get_merge (c later : Config) (f : Field) :
    (c.merge later).get f = (later.get f).or (c.get f) := by
  cases f <;> rfl

/-! ## Layers from the first to the last -/

/-- The settings of layers, each on top of those before it. -/
def ofLayers (cs : List Config) : Config := cs.foldl merge unset

theorem ofLayers_concat (cs : List Config) (c : Config) :
    ofLayers (cs ++ [c]) = (ofLayers cs).merge c := by
  rw [ofLayers, List.foldl_append]
  rfl

theorem ofLayers_append (cs cs' : List Config) :
    ofLayers (cs ++ cs') = (ofLayers cs).merge (ofLayers cs') := by
  induction cs' using List.reverseRecOn with
  | nil => rw [List.append_nil, ofLayers, ofLayers, List.foldl_nil, merge_unset]
  | append_singleton cs' c ih =>
    rw [← List.append_assoc, ofLayers_concat, ofLayers_concat, ih, merge_assoc]

/-- A layer that does not set a field leaves it as it was, and one that does decides. -/
theorem get_ofLayers_concat (cs : List Config) (c : Config) (f : Field) :
    (ofLayers (cs ++ [c])).get f = (c.get f).or ((ofLayers cs).get f) := by
  rw [ofLayers_concat, get_merge]

theorem get_ofLayers_eq_none_iff : (ofLayers cs).get f = none ↔ ∀ c ∈ cs, c.get f = none := by
  induction cs using List.reverseRecOn with
  | nil => simp [ofLayers, get_unset]
  | append_singleton cs c ih =>
    rw [get_ofLayers_concat, Option.or_eq_none_iff, ih, List.forall_mem_append,
      List.forall_mem_singleton, and_comm]

theorem get_ofLayers_of_later (hc : c.get f = some v) (hafter : ∀ d ∈ after, d.get f = none) :
    (ofLayers (before ++ c :: after)).get f = some v := by
  rw [List.append_cons, ofLayers_append, get_merge, get_ofLayers_eq_none_iff.mpr hafter,
    Option.none_or, get_ofLayers_concat, hc, Option.some_or]

theorem exists_last_of_get_ofLayers (h : (ofLayers cs).get f = some v) :
    ∃ before c after, cs = before ++ c :: after ∧ c.get f = some v ∧
      ∀ d ∈ after, d.get f = none := by
  induction cs using List.reverseRecOn with
  | nil =>
    rw [ofLayers, List.foldl_nil, get_unset] at h
    cases h
  | append_singleton cs c ih =>
    rw [get_ofLayers_concat, Option.or_eq_some_iff] at h
    rcases h with hc | ⟨hc, hcs⟩
    · exact ⟨cs, c, [], rfl, hc, by simp⟩
    · obtain ⟨before, d, after, rfl, hd, hafter⟩ := ih hcs
      refine ⟨before, d, after ++ [c], by simp, hd, ?_⟩
      rw [List.forall_mem_append, List.forall_mem_singleton]
      exact ⟨hafter, hc⟩

end Config

/-! ## Layers in any grouping -/

/-- Layers, and how they are put together. -/
inductive Layers
  | one (c : Config)
  | stack (below above : Layers)

namespace Layers

/-- The layers from the first to the last. -/
def toList : Layers → List Config
  | one c => [c]
  | stack below above => below.toList ++ above.toList

/-- The settings of layers that are put together as they are grouped. -/
def merged : Layers → Config
  | one c => c
  | stack below above => below.merged.merge above.merged

theorem merged_eq (l : Layers) : l.merged = Config.ofLayers l.toList := by
  induction l with
  | one c => exact (Config.unset_merge c).symm
  | stack below above ihbelow ihabove =>
    rw [merged, toList, ihbelow, ihabove, Config.ofLayers_append]

end Layers

namespace Config

/-- Layers of settings.  To lay settings on top of each other is associative, with the
settings that set nothing for its identity, so that layers can be grouped in any way.  Of
any number of layers, each field has the value of the last one that sets it, and is not set
if none does; and a layer that does not set it might as well not be there. -/
theorem merge_last :
    (∀ a b c : Config, (a.merge b).merge c = a.merge (b.merge c)) ∧
    (∀ c : Config, unset.merge c = c ∧ c.merge unset = c) ∧
    (∀ l : Layers, l.merged = l.toList.foldl merge unset) ∧
    ∀ f : Field,
      (∀ (cs : List Config) (v : f.Value), (cs.foldl merge unset).get f = some v ↔
        ∃ before c after, cs = before ++ c :: after ∧ c.get f = some v ∧
          ∀ d ∈ after, d.get f = none) ∧
      (∀ cs : List Config, (cs.foldl merge unset).get f = none ↔ ∀ c ∈ cs, c.get f = none) ∧
      ∀ (before : List Config) (c : Config) (after : List Config), c.get f = none →
        ((before ++ c :: after).foldl merge unset).get f
          = ((before ++ after).foldl merge unset).get f := by
  refine ⟨merge_assoc, fun c => ⟨unset_merge c, merge_unset c⟩, Layers.merged_eq, ?_⟩
  intro f
  refine ⟨?last, fun cs => get_ofLayers_eq_none_iff, ?skipped⟩
  case last =>
    intro cs v
    constructor
    · exact exists_last_of_get_ofLayers
    · rintro ⟨before, c, after, rfl, hc, hafter⟩
      exact get_ofLayers_of_later hc hafter
  case skipped =>
    intro before c after hc
    show (ofLayers (before ++ c :: after)).get f = (ofLayers (before ++ after)).get f
    rw [List.append_cons, ofLayers_append, get_merge, get_ofLayers_concat, hc, Option.none_or,
      ← get_merge, ← ofLayers_append]

/-- Of three layers the last one sets the format again, and the one between sets only
whether times are logged. -/
theorem merge_last_three :
    let file : Config := ⟨some .json, some 10, none⟩
    let between : Config := ⟨none, none, some true⟩
    let flags : Config := ⟨some .lines, none, none⟩
    let c := [file, between, flags].foldl merge unset
    between.get .format = none ∧ c.get .format = some Format.lines ∧
      c.get .maxFileSize = some (10 : UInt64) ∧ c.get .time = some true ∧
      c.get .format = ([file, flags].foldl merge unset).get .format := by
  intro file between flags c
  obtain ⟨-, -, -, hfields⟩ := merge_last
  obtain ⟨hformat, -, hskipped⟩ := hfields .format
  obtain ⟨hlimit, -⟩ := hfields .maxFileSize
  obtain ⟨htime, -⟩ := hfields .time
  refine ⟨rfl, ?_, ?_, ?_, hskipped [file] between [flags] rfl⟩
  · exact (hformat _ _).mpr ⟨[file, between], flags, [], rfl, rfl, by simp⟩
  · refine (hlimit _ _).mpr ⟨[], file, [between, flags], rfl, rfl, ?_⟩
    rintro d (_ | ⟨_, _ | ⟨_, ⟨⟩⟩⟩) <;> rfl
  · refine (htime _ _).mpr ⟨[file], between, [flags], rfl, rfl, ?_⟩
    rintro d (_ | ⟨_, ⟨⟩⟩)
    rfl

end Config

end SourceTokens
