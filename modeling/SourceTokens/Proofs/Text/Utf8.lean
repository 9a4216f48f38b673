/-
# `SourceTokens.Proofs.Text.Utf8` — octets cut into characters and bad stretches

What decoding has to find is said without the decoder, by the octets that each character
is written with.  Octets are cut (`Cut`) where a character ends that they begin with, or,
if they begin with none, after a bad stretch (`Bad`): as many of them as some character
begins with, and at least one.  There is one way to cut any octets, and the decoder finds
it (`cut_iff`).

Text on either side of octets stays as it is, whatever these are (`decodeLenient_append`).
In front that is because no character is written as the beginning of another.  Behind, it
is because the first octet of a character is none that continues one: a stretch that ran
out of octets does not go on into the text that follows.
-/
import Mathlib
import SourceTokens.Text.Utf8

namespace SourceTokens.Text.Utf8

open String (utf8EncodeChar)

variable {b b₁ : UInt8} {bs q rest octets : List UInt8} {n v : Nat} {r : Range}
  {rs : List Range} {c : Char} {s : String} {us : List (Option Char)}

/-! ## The specification -/

/-- Some character begins with these octets. -/
def Begins (q : List UInt8) : Prop := ∃ c, q <+: utf8EncodeChar c

/-- `Bad stretch rest`: at the front of `stretch ++ rest` is no character, and `stretch`
is as much of it as some character begins with, or its first octet. -/
structure Bad (stretch rest : List UInt8) : Prop where
  not_encodeChar : ∀ c, ¬ utf8EncodeChar c <+: stretch ++ rest
  ne_nil : stretch ≠ []
  begins : Begins stretch ∨ stretch.length = 1
  longest : ∀ q, q <+: stretch ++ rest → Begins q → q.length ≤ stretch.length

/-- `Cut octets us`: the octets are those of the characters and bad stretches `us`, a bad
stretch being `none`. -/
inductive Cut : List UInt8 → List (Option Char) → Prop
  | nil : Cut [] []
  | char (c : Char) {rest : List UInt8} {us : List (Option Char)} (h : Cut rest us) :
      Cut (utf8EncodeChar c ++ rest) (some c :: us)
  | bad {stretch rest : List UInt8} {us : List (Option Char)} (hbad : Bad stretch rest)
      (h : Cut rest us) : Cut (stretch ++ rest) (none :: us)

/-! ## Octets in ranges -/

theorem contains_iff : r.contains b = true ↔ r.lo.toNat ≤ b.toNat ∧ b.toNat ≤ r.hi.toNat := by
  simp [Range.contains, UInt8.le_iff_toNat_le]

theorem contains_tail_iff : tail.contains b = true ↔ 0x80 ≤ b.toNat ∧ b.toNat ≤ 0xbf :=
  contains_iff

/-- `Fits rs bs`: the octets `bs` are in the first of the ranges `rs`, one in each. -/
inductive Fits : List Range → List UInt8 → Prop
  | nil {rs : List Range} : Fits rs []
  | cons {r : Range} {rs : List Range} {b : UInt8} {bs : List UInt8}
      (hb : r.contains b = true) (hbs : Fits rs bs) : Fits (r :: rs) (b :: bs)

theorem fits_cons_iff : Fits (r :: rs) (b :: bs) ↔ r.contains b = true ∧ Fits rs bs := by
  constructor
  · rintro (_ | ⟨hb, hbs⟩)
    exact ⟨hb, hbs⟩
  · rintro ⟨hb, hbs⟩
    exact .cons hb hbs

theorem Fits.of_prefix (h : Fits rs bs) (hq : q <+: bs) : Fits rs q := by
  induction h generalizing q with
  | nil =>
    obtain rfl := List.prefix_nil.mp hq
    exact .nil
  | cons hb _ ih =>
    cases q with
    | nil => exact .nil
    | cons x q =>
      obtain ⟨rfl, hrest⟩ := List.cons_prefix_cons.mp hq
      exact .cons hb (ih hrest)

theorem Fits.length_le (h : Fits rs bs) : bs.length ≤ rs.length := by
  induction h with
  | nil => exact Nat.zero_le _
  | cons _ _ ih => exact Nat.succ_le_succ ih

/-- Octets in the first of some ranges, none of which is empty, go on to fill them. -/
theorem Fits.exists_full (h : Fits rs q) (hrs : ∀ r ∈ rs, r.contains r.lo = true) :
    ∃ bs, q <+: bs ∧ Fits rs bs ∧ bs.length = rs.length := by
  induction rs generalizing q with
  | nil =>
    obtain _ | _ := h
    exact ⟨[], List.nil_prefix, .nil, rfl⟩
  | cons r rs ih =>
    obtain ⟨hr, hrs⟩ := List.forall_mem_cons.mp hrs
    cases h with
    | nil =>
      obtain ⟨bs, -, hfits, hlength⟩ := ih .nil hrs
      exact ⟨r.lo :: bs, List.nil_prefix, .cons hr hfits, by simp [hlength]⟩
    | cons hb hq =>
      obtain ⟨bs, hprefix, hfits, hlength⟩ := ih hq hrs
      exact ⟨_ :: bs, List.cons_prefix_cons.mpr ⟨rfl, hprefix⟩, .cons hb hfits, by simp [hlength]⟩

/-- The octets at the front that are in the ranges, up to the first that is not. -/
def fitting : List Range → List UInt8 → List UInt8
  | r :: rs, b :: bs => if r.contains b then b :: fitting rs bs else []
  | _, _ => []

theorem fits_fitting (rs : List Range) (bs : List UInt8) : Fits rs (fitting rs bs) := by
  fun_induction fitting with
  | case1 r rs b bs hb ih => exact .cons hb ih
  | case2 => exact .nil
  | case3 => exact .nil

theorem Fits.length_le_fitting (h : Fits rs q) (hq : q <+: bs) :
    q.length ≤ (fitting rs bs).length := by
  induction h generalizing bs with
  | nil => exact Nat.zero_le _
  | cons hb _ ih =>
    obtain ⟨rest, rfl⟩ := hq
    simp only [List.cons_append, fitting, hb, if_true, List.length_cons]
    exact Nat.succ_le_succ (ih (List.prefix_append _ _))

/-- The number that octets make of the share `n` of the first one. -/
def value (n : Nat) (bs : List UInt8) : Nat :=
  bs.foldl (fun n b => n * 64 + (b.toNat - 0x80)) n

theorem value_cons (n : Nat) (b : UInt8) (bs : List UInt8) :
    value n (b :: bs) = value (n * 64 + (b.toNat - 0x80)) bs :=
  List.foldl_cons ..

/-- Octets are taken as long as they fit, and make a number if they fill the ranges. -/
theorem follow_eq (n : Nat) (rs : List Range) (bs : List UInt8) :
    (follow n rs bs).1
        = (if (fitting rs bs).length = rs.length then some (value n (fitting rs bs)) else none) ∧
      fitting rs bs ++ (follow n rs bs).2 = bs := by
  induction rs generalizing n bs with
  | nil => simp [follow, fitting, value]
  | cons r rs ih =>
    cases bs with
    | nil => simp [follow, fitting]
    | cons b bs =>
      cases hb : r.contains b with
      | false => simp [follow, fitting, hb]
      | true => simpa [follow, fitting, hb, value_cons] using ih (n * 64 + (b.toNat - 0x80)) bs

theorem follow_append_of_fits (h : Fits rs bs) (hlength : bs.length = rs.length)
    (rest : List UInt8) : follow n rs (bs ++ rest) = (some (value n bs), rest) := by
  induction h generalizing n with
  | nil =>
    obtain rfl := List.eq_nil_of_length_eq_zero hlength.symm
    rfl
  | cons hb _ ih =>
    rw [List.cons_append, follow, if_pos hb, ih (Nat.succ.inj hlength), value_cons]

/-! ## First octets -/

/-- The octets that can come second after `b`, if any have to come. -/
def second (b : UInt8) : Range :=
  if b.toNat = 0xe0 then ⟨0xa0, 0xbf⟩ else if b.toNat = 0xed then ⟨0x80, 0x9f⟩
  else if b.toNat = 0xf0 then ⟨0x90, 0xbf⟩ else if b.toNat = 0xf4 then ⟨0x80, 0x8f⟩ else tail

theorem contains_second_iff : (second b).contains b₁ = true ↔ tail.contains b₁ = true ∧
    (b.toNat = 0xe0 → 0xa0 ≤ b₁.toNat) ∧ (b.toNat = 0xed → b₁.toNat < 0xa0) ∧
    (b.toNat = 0xf0 → 0x90 ≤ b₁.toNat) ∧ (b.toNat = 0xf4 → b₁.toNat < 0x90) := by
  rw [second, contains_iff, contains_tail_iff]
  split_ifs
  · show 0xa0 ≤ _ ∧ _ ≤ 0xbf ↔ _
    omega
  · show 0x80 ≤ _ ∧ _ ≤ 0x9f ↔ _
    omega
  · show 0x90 ≤ _ ∧ _ ≤ 0xbf ↔ _
    omega
  · show 0x80 ≤ _ ∧ _ ≤ 0x8f ↔ _
    omega
  · show 0x80 ≤ _ ∧ _ ≤ 0xbf ↔ _
    omega

/-- `Lead b n rs`: with its share `n` of the number, `b` begins a character, and octets in
the ranges `rs` have to follow. -/
inductive Lead (b : UInt8) : Nat → List Range → Prop
  | one (h : b.toNat < 0x80) : Lead b b.toNat []
  | two (lo : 0xc2 ≤ b.toNat) (hi : b.toNat < 0xe0) : Lead b (b.toNat - 0xc0) [tail]
  | three (lo : 0xe0 ≤ b.toNat) (hi : b.toNat < 0xf0) :
      Lead b (b.toNat - 0xe0) [second b, tail]
  | four (lo : 0xf0 ≤ b.toNat) (hi : b.toNat < 0xf5) :
      Lead b (b.toNat - 0xf0) [second b, tail, tail]

theorem lead?_eq (b : UInt8) : lead? b =
    if b.toNat < 0x80 then some (b.toNat, [])
    else if b.toNat < 0xc2 then none
    else if b.toNat < 0xe0 then some (b.toNat - 0xc0, [tail])
    else if b.toNat < 0xf0 then some (b.toNat - 0xe0, [second b, tail])
    else if b.toNat < 0xf5 then some (b.toNat - 0xf0, [second b, tail, tail])
    else none := by
  grind [lead?, second]

theorem lead?_eq_some_iff : lead? b = some (n, rs) ↔ Lead b n rs := by
  rw [lead?_eq]
  constructor
  · grind [Lead]
  · rintro (_ | _ | _ | _)
    all_goals grind

/-- No range is empty, and none goes beyond the octets that continue characters. -/
theorem Lead.ranges (h : Lead b n rs) :
    ∀ r ∈ rs, r.contains r.lo = true ∧ ∀ x, r.contains x = true → tail.contains x = true := by
  have htail : tail.contains tail.lo = true ∧
      ∀ x, tail.contains x = true → tail.contains x = true := ⟨by decide, fun _ => id⟩
  have hsecond : (second b).contains (second b).lo = true ∧
      ∀ x, (second b).contains x = true → tail.contains x = true := by
    refine ⟨?_, fun x hx => (contains_second_iff.mp hx).1⟩
    rw [second]
    split_ifs <;> decide
  cases h with
  | one => simp
  | two => exact List.forall_mem_singleton.mpr htail
  | three =>
    exact List.forall_mem_cons.mpr ⟨hsecond, List.forall_mem_singleton.mpr htail⟩
  | four =>
    exact List.forall_mem_cons.mpr ⟨hsecond,
      List.forall_mem_cons.mpr ⟨htail, List.forall_mem_singleton.mpr htail⟩⟩

/-- What begins a character continues none. -/
theorem Lead.not_contains_tail (h : Lead b n rs) : tail.contains b = false := by
  rw [Bool.eq_false_iff, ne_eq, contains_tail_iff]
  cases h <;> omega

/-! ## Characters -/

theorem ofNat_eq (h : n = b.toNat) : UInt8.ofNat n = b := by
  rw [h, UInt8.ofNat_toNat]

theorem encodeChar_of_lead (h : Lead b n rs) (hfits : Fits rs bs)
    (hlength : bs.length = rs.length) : utf8EncodeChar (Char.ofNat (value n bs)) = b :: bs := by
  cases h with
  | one hb =>
    obtain rfl := List.eq_nil_of_length_eq_zero hlength
    have hv : value b.toNat [] = b.toNat := rfl
    have hvalid : (value b.toNat []).isValidChar := .inl (by omega)
    rw [utf8EncodeChar, Char.toNat_val, Char.toNat_ofNat, if_pos hvalid]
    rw [if_pos (by omega), ofNat_eq hv]
  | two lo hi =>
    obtain ⟨b₁, rfl⟩ := List.length_eq_one_iff.mp hlength
    simp only [fits_cons_iff, contains_tail_iff] at hfits
    have hv : value (b.toNat - 0xc0) [b₁] = (b.toNat - 0xc0) * 64 + (b₁.toNat - 0x80) := rfl
    have hvalid : (value (b.toNat - 0xc0) [b₁]).isValidChar := .inl (by omega)
    rw [utf8EncodeChar, Char.toNat_val, Char.toNat_ofNat, if_pos hvalid]
    rw [if_neg (by omega), if_pos (by omega), ofNat_eq (b := b) (by omega),
      ofNat_eq (b := b₁) (by omega)]
  | three lo hi =>
    obtain ⟨b₁, b₂, rfl⟩ := List.length_eq_two.mp hlength
    simp only [fits_cons_iff, contains_second_iff, contains_tail_iff] at hfits
    have hv : value (b.toNat - 0xe0) [b₁, b₂]
        = ((b.toNat - 0xe0) * 64 + (b₁.toNat - 0x80)) * 64 + (b₂.toNat - 0x80) := rfl
    have hvalid : (value (b.toNat - 0xe0) [b₁, b₂]).isValidChar := by
      rw [Nat.isValidChar]
      omega
    rw [utf8EncodeChar, Char.toNat_val, Char.toNat_ofNat, if_pos hvalid]
    rw [if_neg (by omega), if_neg (by omega), if_pos (by omega), ofNat_eq (b := b) (by omega),
      ofNat_eq (b := b₁) (by omega), ofNat_eq (b := b₂) (by omega)]
  | four lo hi =>
    obtain ⟨b₁, b₂, b₃, rfl⟩ := List.length_eq_three.mp hlength
    simp only [fits_cons_iff, contains_second_iff, contains_tail_iff] at hfits
    have hv : value (b.toNat - 0xf0) [b₁, b₂, b₃]
        = (((b.toNat - 0xf0) * 64 + (b₁.toNat - 0x80)) * 64 + (b₂.toNat - 0x80)) * 64
          + (b₃.toNat - 0x80) := rfl
    have hvalid : (value (b.toNat - 0xf0) [b₁, b₂, b₃]).isValidChar := by
      rw [Nat.isValidChar]
      omega
    rw [utf8EncodeChar, Char.toNat_val, Char.toNat_ofNat, if_pos hvalid]
    rw [if_neg (by omega), if_neg (by omega), if_neg (by omega), ofNat_eq (b := b) (by omega),
      ofNat_eq (b := b₁) (by omega), ofNat_eq (b := b₂) (by omega), ofNat_eq (b := b₃) (by omega)]

theorem exists_toNat_eq (h : n < 256) : ∃ b, UInt8.ofNat n = b ∧ b.toNat = n :=
  ⟨_, rfl, UInt8.toNat_ofNat_of_lt' h⟩

theorem exists_lead (c : Char) : ∃ b bs n rs, utf8EncodeChar c = b :: bs ∧ Lead b n rs ∧
    Fits rs bs ∧ bs.length = rs.length ∧ value n bs = c.toNat := by
  have hvalid : c.toNat.isValidChar := c.valid
  rw [Nat.isValidChar] at hvalid
  rw [utf8EncodeChar, Char.toNat_val]
  generalize c.toNat = v at hvalid
  split_ifs with h₁ h₂ h₃
  · obtain ⟨b, hb, hbv⟩ := exists_toNat_eq (n := v) (by omega)
    rw [hb]
    exact ⟨b, [], _, _, rfl, .one (by omega), .nil, rfl, hbv⟩
  · obtain ⟨b, hb, hbv⟩ := exists_toNat_eq (n := v / 64 % 32 + 192) (by omega)
    obtain ⟨b₁, hb₁, hbv₁⟩ := exists_toNat_eq (n := v % 64 + 128) (by omega)
    rw [hb, hb₁]
    refine ⟨b, [b₁], _, _, rfl, .two (by omega) (by omega), ?fits, rfl, ?value⟩
    case fits =>
      simp only [fits_cons_iff, contains_tail_iff]
      exact ⟨by omega, .nil⟩
    case value =>
      show (b.toNat - 0xc0) * 64 + (b₁.toNat - 0x80) = v
      omega
  · obtain ⟨b, hb, hbv⟩ := exists_toNat_eq (n := v / 4096 % 16 + 224) (by omega)
    obtain ⟨b₁, hb₁, hbv₁⟩ := exists_toNat_eq (n := v / 64 % 64 + 128) (by omega)
    obtain ⟨b₂, hb₂, hbv₂⟩ := exists_toNat_eq (n := v % 64 + 128) (by omega)
    rw [hb, hb₁, hb₂]
    refine ⟨b, [b₁, b₂], _, _, rfl, .three (by omega) (by omega), ?fits, rfl, ?value⟩
    case fits =>
      simp only [fits_cons_iff, contains_second_iff, contains_tail_iff]
      exact ⟨by omega, by omega, .nil⟩
    case value =>
      show ((b.toNat - 0xe0) * 64 + (b₁.toNat - 0x80)) * 64 + (b₂.toNat - 0x80) = v
      omega
  · obtain ⟨b, hb, hbv⟩ := exists_toNat_eq (n := v / 262144 % 8 + 240) (by omega)
    obtain ⟨b₁, hb₁, hbv₁⟩ := exists_toNat_eq (n := v / 4096 % 64 + 128) (by omega)
    obtain ⟨b₂, hb₂, hbv₂⟩ := exists_toNat_eq (n := v / 64 % 64 + 128) (by omega)
    obtain ⟨b₃, hb₃, hbv₃⟩ := exists_toNat_eq (n := v % 64 + 128) (by omega)
    rw [hb, hb₁, hb₂, hb₃]
    refine ⟨b, [b₁, b₂, b₃], _, _, rfl, .four (by omega) (by omega), ?fits, rfl, ?value⟩
    case fits =>
      simp only [fits_cons_iff, contains_second_iff, contains_tail_iff]
      exact ⟨by omega, by omega, by omega, .nil⟩
    case value =>
      show (((b.toNat - 0xf0) * 64 + (b₁.toNat - 0x80)) * 64 + (b₂.toNat - 0x80)) * 64
        + (b₃.toNat - 0x80) = v
      omega

theorem Lead.begins_iff (h : Lead b n rs) : Begins (b :: q) ↔ Fits rs q := by
  constructor
  · rintro ⟨c, hc⟩
    obtain ⟨b', bs, n', rs', hencode, hlead, hfits, -⟩ := exists_lead c
    rw [hencode] at hc
    obtain ⟨rfl, hq⟩ := List.cons_prefix_cons.mp hc
    have hsame := (lead?_eq_some_iff.mpr hlead).symm.trans (lead?_eq_some_iff.mpr h)
    obtain ⟨rfl, rfl⟩ := Prod.mk.inj (Option.some.inj hsame)
    exact hfits.of_prefix hq
  · intro hq
    obtain ⟨bs, hprefix, hfits, hlength⟩ := hq.exists_full fun r hr => (h.ranges r hr).1
    refine ⟨Char.ofNat (value n bs), ?_⟩
    rw [encodeChar_of_lead h hfits hlength]
    exact List.cons_prefix_cons.mpr ⟨rfl, hprefix⟩

theorem exists_lead_of_begins (h : Begins (b :: q)) : ∃ n rs, Lead b n rs := by
  obtain ⟨c, hc⟩ := h
  obtain ⟨b', bs, n, rs, hencode, hlead, -⟩ := exists_lead c
  rw [hencode] at hc
  obtain ⟨rfl, -⟩ := List.cons_prefix_cons.mp hc
  exact ⟨n, rs, hlead⟩

/-! ## One step -/

theorem next_of_lead (h : Lead b n rs) (bs : List UInt8) :
    next b bs = ((follow n rs bs).1.map Char.ofNat, (follow n rs bs).2) := by
  rw [next, lead?_eq_some_iff.mpr h]

theorem next_of_no_lead (h : ¬ ∃ n rs, Lead b n rs) (bs : List UInt8) :
    next b bs = (none, bs) := by
  have hnone : lead? b = none := by
    refine Option.eq_none_iff_forall_ne_some.mpr ?_
    rintro ⟨n, rs⟩ hb
    exact h ⟨n, rs, lead?_eq_some_iff.mp hb⟩
  rw [next, hnone]

/-- The character that is written first is the first that is read. -/
theorem next_encodeChar (h : b :: bs = utf8EncodeChar c ++ rest) :
    next b bs = (some c, rest) := by
  obtain ⟨b', bs', n, rs, hencode, hlead, hfits, hlength, hvalue⟩ := exists_lead c
  rw [hencode, List.cons_append] at h
  obtain ⟨rfl, rfl⟩ := List.cons.inj h
  rw [next_of_lead hlead, follow_append_of_fits hfits hlength, hvalue]
  simp

/-- Where a step takes no character, it takes a bad stretch. -/
theorem exists_bad_of_next (h : next b bs = (none, rest)) :
    ∃ stretch, b :: bs = stretch ++ rest ∧ Bad stretch rest := by
  have hnone : ∀ c, ¬ utf8EncodeChar c <+: b :: bs := by
    rintro c ⟨rest', hc⟩
    rw [next_encodeChar hc.symm] at h
    cases h
  by_cases hb : ∃ n rs, Lead b n rs
  case neg =>
    rw [next_of_no_lead hb] at h
    obtain rfl : bs = rest := congrArg Prod.snd h
    refine ⟨[b], rfl, hnone, by simp, .inr rfl, ?_⟩
    intro q hq hbegins
    cases q with
    | nil => exact Nat.zero_le _
    | cons x q =>
      obtain ⟨rfl, -⟩ := List.cons_prefix_cons.mp hq
      exact absurd (exists_lead_of_begins hbegins) hb
  case pos =>
    obtain ⟨n, rs, hlead⟩ := hb
    rw [next_of_lead hlead, Prod.mk.injEq, Option.map_eq_none_iff] at h
    obtain ⟨hshort, rfl⟩ := h
    obtain ⟨-, hcut⟩ := follow_eq n rs bs
    have hfits : Begins (b :: fitting rs bs) := hlead.begins_iff.mpr (fits_fitting rs bs)
    refine ⟨b :: fitting rs bs, by rw [List.cons_append, hcut], ?_, by simp, .inl hfits, ?_⟩
    · rwa [List.cons_append, hcut]
    · rw [List.cons_append, hcut]
      intro q hq hbegins
      cases q with
      | nil => exact Nat.zero_le _
      | cons x q =>
        obtain ⟨rfl, hrest⟩ := List.cons_prefix_cons.mp hq
        exact Nat.succ_le_succ ((hlead.begins_iff.mp hbegins).length_le_fitting hrest)

theorem eq_encodeChar_of_next (h : next b bs = (some c, rest)) :
    b :: bs = utf8EncodeChar c ++ rest := by
  by_cases hb : ∃ n rs, Lead b n rs
  case neg =>
    rw [next_of_no_lead hb] at h
    cases h
  case pos =>
    obtain ⟨n, rs, hlead⟩ := hb
    obtain ⟨hnumber, hcut⟩ := follow_eq n rs bs
    rw [next_of_lead hlead, hnumber, Prod.mk.injEq, Option.map_eq_some_iff] at h
    obtain ⟨⟨v, hv, rfl⟩, rfl⟩ := h
    obtain ⟨hfull, hvalue⟩ := Option.ite_none_right_eq_some.mp hv
    obtain rfl := Option.some.inj hvalue
    rw [encodeChar_of_lead hlead (fits_fitting rs bs) hfull, List.cons_append, hcut]

/-! ## All octets -/

theorem cut_units (octets : List UInt8) : Cut octets (units octets) := by
  fun_induction units with
  | case1 => exact .nil
  | case2 b bs _ ih =>
    cases hnext : next b bs with
    | mk unit rest =>
      rw [hnext] at ih
      cases unit with
      | some c =>
        rw [eq_encodeChar_of_next hnext]
        exact .char c ih
      | none =>
        obtain ⟨stretch, heq, hbad⟩ := exists_bad_of_next hnext
        rw [heq]
        exact .bad hbad ih

theorem units_encodeChar_append (c : Char) (rest : List UInt8) :
    units (utf8EncodeChar c ++ rest) = some c :: units rest := by
  obtain ⟨b, bs, hb⟩ := List.exists_cons_of_ne_nil (String.utf8EncodeChar_ne_nil (c := c))
  have hnext : next b (bs ++ rest) = (some c, rest) := next_encodeChar (by rw [hb]; rfl)
  rw [hb, List.cons_append, units, hnext]

/-- The same octets do not begin with two bad stretches. -/
theorem Bad.unique {stretch stretch' rest' : List UInt8} (h : Bad stretch rest)
    (h' : Bad stretch' rest') (heq : stretch ++ rest = stretch' ++ rest') : rest = rest' := by
  have hle : ∀ {p p' r r' : List UInt8}, Bad p r → Bad p' r' → p ++ r = p' ++ r' →
      p.length ≤ p'.length := by
    intro p p' r r' h h' heq
    rcases h.begins with hbegins | hone
    · exact h'.longest p (heq ▸ List.prefix_append p r) hbegins
    · rw [hone]
      exact List.length_pos_iff.mpr h'.ne_nil
  exact (List.append_inj heq (Nat.le_antisymm (hle h h' heq) (hle h' h heq.symm))).2

theorem units_bad_append {stretch : List UInt8} (h : Bad stretch rest) :
    units (stretch ++ rest) = none :: units rest := by
  obtain ⟨b, bs, rfl⟩ := List.exists_cons_of_ne_nil h.ne_nil
  cases hnext : next b (bs ++ rest) with
  | mk unit rest' =>
    cases unit with
    | some c => exact absurd ⟨rest', (eq_encodeChar_of_next hnext).symm⟩ (h.not_encodeChar c)
    | none =>
      obtain ⟨stretch', heq, hbad⟩ := exists_bad_of_next hnext
      obtain rfl := h.unique hbad heq
      rw [List.cons_append, units, hnext]

/-- There is one way to cut octets. -/
theorem cut_iff : Cut octets us ↔ us = units octets := by
  constructor
  · intro h
    induction h with
    | nil => rw [units]
    | char c _ ih => rw [units_encodeChar_append, ih]
    | bad hbad _ ih => rw [units_bad_append hbad, ih]
  · rintro rfl
    exact cut_units octets

/-! ## Text among octets -/

theorem follow_append (h : ∀ r ∈ rs, ∀ b ∈ rest.head?, r.contains b = false) (n : Nat)
    (bs : List UInt8) :
    follow n rs (bs ++ rest) = ((follow n rs bs).1, (follow n rs bs).2 ++ rest) := by
  induction rs generalizing n bs with
  | nil => rfl
  | cons r rs ih =>
    obtain ⟨hr, hrs⟩ := List.forall_mem_cons.mp h
    cases bs with
    | nil =>
      cases rest with
      | nil => rfl
      | cons b rest => simp [follow, hr b rfl]
    | cons b bs =>
      cases hb : r.contains b with
      | false => simp [follow, hb]
      | true => simpa [follow, hb] using ih hrs (n * 64 + (b.toNat - 0x80)) bs

/-- Octets that do not continue a character are read by themselves. -/
theorem units_append (octets : List UInt8) (h : ∀ b ∈ rest.head?, tail.contains b = false) :
    units (octets ++ rest) = units octets ++ units rest := by
  have hnext : ∀ (b : UInt8) (bs : List UInt8),
      next b (bs ++ rest) = ((next b bs).1, (next b bs).2 ++ rest) := by
    intro b bs
    by_cases hb : ∃ n rs, Lead b n rs
    case neg => simp only [next_of_no_lead hb]
    case pos =>
      obtain ⟨n, rs, hlead⟩ := hb
      have hstop : ∀ r ∈ rs, ∀ x ∈ rest.head?, r.contains x = false := by
        intro r hr x hx
        rw [Bool.eq_false_iff]
        intro hcontains
        simpa [h x hx] using (hlead.ranges r hr).2 x hcontains
      simp only [next_of_lead hlead, follow_append hstop]
  fun_induction units octets with
  | case1 => rfl
  | case2 b bs _ ih => rw [List.cons_append, units, hnext, ih, List.cons_append]

theorem toList_loop (array : ByteArray) (i : Nat) (read : List UInt8) :
    ByteArray.toList.loop array i read = read.reverse ++ array.data.toList.drop i := by
  fun_induction ByteArray.toList.loop with
  | case1 i read hi ih =>
    have hlt : i < array.data.toList.length := hi
    have hget : array.get! i = array.data.toList[i] := by
      rw [ByteArray.get!, Array.getElem_toList]
      exact getElem!_pos array.data i hi
    rw [ih, List.drop_eq_getElem_cons hlt, hget, List.reverse_cons, List.append_assoc,
      List.singleton_append]
  | case2 i read hi =>
    have hle : array.data.toList.length ≤ i := Nat.le_of_not_lt hi
    rw [List.drop_eq_nil_of_le hle, List.append_nil]

theorem encode_eq (s : String) : encode s = s.toList.flatMap utf8EncodeChar := by
  have harray : s.toUTF8 = (s.toList.flatMap utf8EncodeChar).toByteArray := by
    rw [String.toUTF8_eq_toByteArray, ← List.utf8Encode, ← String.toByteArray_ofList,
      String.ofList_toList]
  rw [encode, harray, ByteArray.toList, toList_loop]
  simp

theorem encode_append (s s' : String) : encode (s ++ s') = encode s ++ encode s' := by
  simp [encode_eq]

theorem units_encode_append (s : String) (rest : List UInt8) :
    units (encode s ++ rest) = s.toList.map some ++ units rest := by
  rw [encode_eq]
  induction s.toList with
  | nil => rfl
  | cons c cs ih =>
    rw [List.flatMap_cons, List.append_assoc, units_encodeChar_append, ih, List.map_cons,
      List.cons_append]

theorem units_encode (s : String) : units (encode s) = s.toList.map some := by
  simpa [units] using units_encode_append s []

/-- Text does not begin with an octet that continues a character. -/
theorem not_contains_tail_of_encode : ∀ b ∈ (encode s).head?, tail.contains b = false := by
  intro b hb
  rw [encode_eq] at hb
  cases hs : s.toList with
  | nil => simp [hs] at hb
  | cons c cs =>
    obtain ⟨b', bs, n, rs, hencode, hlead, -⟩ := exists_lead c
    obtain rfl : b' = b := by simpa [hs, hencode] using hb
    exact hlead.not_contains_tail

theorem decodeLenient_encode (s : String) : decodeLenient (encode s) = s := by
  rw [decodeLenient, units_encode, List.map_map]
  simp [Function.comp_def]

/-- Text on either side of octets has no part in what they are read as, nor they in what
it is read as. -/
theorem decodeLenient_append (s : String) (octets : List UInt8) (s' : String) :
    decodeLenient (encode s ++ octets ++ encode s') = s ++ decodeLenient octets ++ s' := by
  rw [← String.toList_inj]
  simp only [decodeLenient, List.append_assoc, units_encode_append,
    units_append octets not_contains_tail_of_encode, units_encode]
  simp [Function.comp_def]

theorem octets_of_cut_chars {cs : List Char} (h : Cut octets (cs.map some)) :
    octets = cs.flatMap utf8EncodeChar := by
  induction cs generalizing octets with
  | nil =>
    cases h
    rfl
  | cons c cs ih =>
    cases h with
    | char _ h => rw [List.flatMap_cons, ← ih h]

end SourceTokens.Text.Utf8
