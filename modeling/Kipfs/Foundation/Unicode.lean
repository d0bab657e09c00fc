import Mathlib.Data.List.Basic
import Mathlib.Data.List.TakeWhile

/-!
# Text between UTF-16 and C strings

Encodings of a string of UTF-16 code units as bytes: standard UTF-8 of the scalar values it
encodes, and the modified UTF-8 of the Java native interface, which encodes every code unit by
itself. They agree on a well-formed text exactly when it has no supplementary character
(`modifiedUtf8_eq_utf8_iff`). A C string is the bytes before the first NUL (`goString`).
-/

namespace Foundation

/-- A string of UTF-16 code units, well formed or not. -/
abbrev Utf16 := List UInt16

/-- The first half of a surrogate pair. -/
def isHigh (u : UInt16) : Bool := 0xD800 ≤ u.toNat && u.toNat ≤ 0xDBFF

/-- The second half of a surrogate pair. -/
def isLow (u : UInt16) : Bool := 0xDC00 ≤ u.toNat && u.toNat ≤ 0xDFFF

/-- The character of a code unit that is no surrogate. -/
def unitChar (u : UInt16) : Char := Char.ofNat u.toNat

/-- The supplementary character of a surrogate pair. -/
def pairChar (high low : UInt16) : Char :=
  Char.ofNat (0x10000 + (high.toNat - 0xD800) * 0x400 + (low.toNat - 0xDC00))

/-- U+FFFD, which stands for a surrogate without its partner. -/
def replacementChar : Char := Char.ofNat 0xFFFD

/-- The scalar values a string encodes, an unpaired surrogate replaced by U+FFFD. -/
def decodeUtf16 : Utf16 → List Char
  | [] => []
  | [u] => [if isHigh u || isLow u then replacementChar else unitChar u]
  | u :: v :: rest =>
      if isHigh u && isLow v then pairChar u v :: decodeUtf16 rest
      else (if isHigh u || isLow u then replacementChar else unitChar u) ::
        decodeUtf16 (v :: rest)

/-- Every surrogate is one half of a pair. -/
def WellFormed : Utf16 → Prop
  | [] => True
  | [u] => ¬ (isHigh u || isLow u)
  | u :: v :: rest =>
      if isHigh u && isLow v then WellFormed rest
      else ¬ (isHigh u || isLow u) ∧ WellFormed (v :: rest)

/-- `WellFormed` is decidable by one pass over the string. -/
def decideWellFormed : (s : Utf16) → Decidable (WellFormed s)
  | [] => .isTrue trivial
  | [u] => inferInstanceAs (Decidable (¬ (isHigh u || isLow u)))
  | u :: v :: rest =>
      let _ := decideWellFormed rest
      let _ := decideWellFormed (v :: rest)
      inferInstanceAs (Decidable (if isHigh u && isLow v then WellFormed rest
        else ¬ (isHigh u || isLow u) ∧ WellFormed (v :: rest)))

instance (s : Utf16) : Decidable (WellFormed s) := decideWellFormed s

/-- The UTF-16 code units of a character. -/
def encodeChar (c : Char) : Utf16 :=
  if c.toNat < 0x10000 then [UInt16.ofNat c.toNat]
  else [UInt16.ofNat (0xD800 + (c.toNat - 0x10000) / 0x400),
    UInt16.ofNat (0xDC00 + (c.toNat - 0x10000) % 0x400)]

/-- The UTF-16 code units of a text. -/
def encodeUtf16 (cs : List Char) : Utf16 := cs.flatMap encodeChar

/-- Standard UTF-8 of a text. -/
def utf8Chars (cs : List Char) : List UInt8 := cs.flatMap String.utf8EncodeChar

/-- Standard UTF-8 of a string of code units. -/
def utf8 (s : Utf16) : List UInt8 := utf8Chars (decodeUtf16 s)

/-- Modified UTF-8 of one code unit: one byte for U+0001 to U+007F, two up to U+07FF and for
U+0000, three for the rest, surrogates included. -/
def modifiedUnit (u : UInt16) : List UInt8 :=
  let v := u.toNat
  if v ≠ 0 ∧ v ≤ 0x7f then [UInt8.ofNat v]
  else if v ≤ 0x7ff then [UInt8.ofNat (v / 64 % 0x20 + 0xc0), UInt8.ofNat (v % 0x40 + 0x80)]
  else [UInt8.ofNat (v / 4096 % 0x10 + 0xe0), UInt8.ofNat (v / 64 % 0x40 + 0x80),
    UInt8.ofNat (v % 0x40 + 0x80)]

/-- Modified UTF-8 of a string of code units. -/
def modifiedUtf8 (s : Utf16) : List UInt8 := s.flatMap modifiedUnit

/-- Only characters of the basic plane: no code unit is a surrogate. -/
def Basic (s : Utf16) : Prop := ∀ u ∈ s, ¬ (isHigh u || isLow u)

instance (s : Utf16) : Decidable (Basic s) := List.decidableBAll _ s

/-- The number of surrogate pairs, that is, of supplementary characters. -/
def supplementary : Utf16 → Nat
  | [] => 0
  | [_] => 0
  | u :: v :: rest =>
      if isHigh u && isLow v then supplementary rest + 1 else supplementary (v :: rest)

/-- A continuation byte of UTF-8. -/
def isTail (b : UInt8) : Bool := 0x80 ≤ b.toNat && b.toNat ≤ 0xBF

/-- The payload of a continuation byte. -/
def tail (b : UInt8) : Nat := b.toNat - 0x80

/-- The character at the front of a sequence of UTF-8 bytes and the number of continuation bytes
it takes; U+FFFD and none when the first byte begins no character. -/
def firstUtf8 (a : UInt8) (rest : List UInt8) : Char × Nat :=
  if a.toNat < 0x80 then (Char.ofNat a.toNat, 0)
  else if a.toNat < 0xE0 then
    match rest with
    | b :: _ =>
        let v := (a.toNat - 0xC0) * 0x40 + tail b
        if 0x80 ≤ v && isTail b then (Char.ofNat v, 1) else (replacementChar, 0)
    | _ => (replacementChar, 0)
  else if a.toNat < 0xF0 then
    match rest with
    | b :: c :: _ =>
        let v := (a.toNat - 0xE0) * 0x1000 + tail b * 0x40 + tail c
        if 0x800 ≤ v && !(0xD800 ≤ v && v ≤ 0xDFFF) && isTail b && isTail c then
          (Char.ofNat v, 2)
        else (replacementChar, 0)
    | _ => (replacementChar, 0)
  else
    match rest with
    | b :: c :: d :: _ =>
        let v := (a.toNat - 0xF0) * 0x40000 + tail b * 0x1000 + tail c * 0x40 + tail d
        if 0x10000 ≤ v && v ≤ 0x10FFFF && isTail b && isTail c && isTail d then (Char.ofNat v, 3)
        else (replacementChar, 0)
    | _ => (replacementChar, 0)

/-- The text of a sequence of UTF-8 bytes after some more bytes to skip. -/
def decodeFrom : List UInt8 → Nat → List Char
  | [], _ => []
  | _ :: rest, skip + 1 => decodeFrom rest skip
  | a :: rest, 0 => (firstUtf8 a rest).1 :: decodeFrom rest (firstUtf8 a rest).2

/-- The text a sequence of UTF-8 bytes encodes, a byte that begins no character replaced by
U+FFFD. -/
def decodeUtf8 (b : List UInt8) : List Char := decodeFrom b 0

/-- The code unit at the front of a sequence of modified UTF-8 bytes and the number of continuation
bytes it takes. -/
def firstModified (a : UInt8) (rest : List UInt8) : UInt16 × Nat :=
  if a.toNat < 0x80 then (UInt16.ofNat a.toNat, 0)
  else
    let b := rest[0]?.getD 0
    let c := rest[1]?.getD 0
    if a.toNat < 0xE0 then (UInt16.ofNat (a.toNat % 0x20 * 0x40 + b.toNat % 0x40), 1)
    else
      (UInt16.ofNat (a.toNat % 0x10 * 0x1000 + b.toNat % 0x40 * 0x40 + c.toNat % 0x40), 2)

/-- The code units of a sequence of modified UTF-8 bytes after some more bytes to skip. -/
def decodeModifiedFrom : List UInt8 → Nat → Utf16
  | [], _ => []
  | _ :: rest, skip + 1 => decodeModifiedFrom rest skip
  | a :: rest, 0 => (firstModified a rest).1 :: decodeModifiedFrom rest (firstModified a rest).2

/-- The code units a sequence of modified UTF-8 bytes encodes. -/
def decodeModified (b : List UInt8) : Utf16 := decodeModifiedFrom b 0

/-- The bytes a C string holds, given the memory from its address on: those before the first
NUL. -/
def goString (memory : List UInt8) : List UInt8 := memory.takeWhile (· ≠ 0)

/-! ## Single characters -/

/-- The byte of a small number is zero only for zero. -/
theorem ofNat_ne_zero {n : Nat} (hpos : 0 < n) (hlt : n < 256) : UInt8.ofNat n ≠ 0 := by
  intro h
  have hn := congrArg UInt8.toNat h
  simp only [UInt8.toNat_ofNat', UInt8.toNat_zero] at hn
  omega

/-- The number of the character with a given number. -/
theorem toNat_ofNat {n : Nat} (h : n.isValidChar) : (Char.ofNat n).toNat = n := by
  rw [Char.ofNat, dif_pos h]
  rfl

/-- A code unit that is no surrogate is a scalar value. -/
theorem toNat_unitChar {u : UInt16} (h : ¬ (isHigh u || isLow u)) :
    (unitChar u).toNat = u.toNat := by
  have hlt := u.toNat_lt
  have hvalid : u.toNat.isValidChar := by
    simp only [isHigh, isLow, Bool.or_eq_true, Bool.and_eq_true, decide_eq_true_eq] at h
    unfold Nat.isValidChar
    omega
  rw [unitChar, toNat_ofNat hvalid]

/-- A surrogate pair encodes a scalar value beyond the code units. -/
theorem toNat_pairChar {u v : UInt16} (h : isHigh u && isLow v) :
    0x10000 ≤ (pairChar u v).toNat := by
  simp only [isHigh, isLow, Bool.and_eq_true, decide_eq_true_eq] at h
  have hvalid : (0x10000 + (u.toNat - 0xD800) * 0x400 + (v.toNat - 0xDC00)).isValidChar := by
    unfold Nat.isValidChar
    omega
  rw [pairChar, toNat_ofNat hvalid]
  omega

/-- The pair a supplementary character is encoded by is the pair that encoded it. -/
theorem encodeChar_pairChar {u v : UInt16} (h : isHigh u && isLow v) :
    encodeChar (pairChar u v) = [u, v] := by
  have hge := toNat_pairChar h
  simp only [isHigh, isLow, Bool.and_eq_true, decide_eq_true_eq] at h
  have hvalid : (0x10000 + (u.toNat - 0xD800) * 0x400 + (v.toNat - 0xDC00)).isValidChar := by
    unfold Nat.isValidChar
    omega
  -- ten bits of the number come from each half
  have hval : (pairChar u v).toNat =
      0x10000 + (u.toNat - 0xD800) * 0x400 + (v.toNat - 0xDC00) := toNat_ofNat hvalid
  have hhigh : 0xD800 + ((pairChar u v).toNat - 0x10000) / 0x400 = u.toNat := by omega
  have hlow : 0xDC00 + ((pairChar u v).toNat - 0x10000) % 0x400 = v.toNat := by omega
  rw [encodeChar, if_neg (by omega), hhigh, hlow, UInt16.ofNat_toNat, UInt16.ofNat_toNat]

/-- On a code unit other than U+0000 that is no surrogate the two encodings agree. -/
theorem modifiedUnit_eq {u : UInt16} (hsurrogate : ¬ (isHigh u || isLow u)) (hzero : u ≠ 0) :
    modifiedUnit u = String.utf8EncodeChar (unitChar u) := by
  have hne : u.toNat ≠ 0 := fun h => hzero (UInt16.toNat.inj h)
  have hlt := u.toNat_lt
  have hval : (unitChar u).val.toNat = u.toNat := toNat_unitChar hsurrogate
  have hmax : u.toNat ≤ 0xffff := by omega
  simp only [modifiedUnit, String.utf8EncodeChar, hval, hne, hmax, ne_eq, not_false_eq_true,
    true_and, if_true]

/-- Each surrogate takes three bytes of modified UTF-8. -/
theorem length_modifiedUnit {u : UInt16} (h : isHigh u || isLow u) :
    (modifiedUnit u).length = 3 := by
  simp only [isHigh, isLow, Bool.or_eq_true, Bool.and_eq_true, decide_eq_true_eq] at h
  have h1 : ¬ (u.toNat ≠ 0 ∧ u.toNat ≤ 0x7f) := by omega
  have h2 : ¬ u.toNat ≤ 0x7ff := by omega
  simp [modifiedUnit, h1, h2]

/-- A supplementary character takes four bytes of UTF-8. -/
theorem length_utf8_pairChar {u v : UInt16} (h : isHigh u && isLow v) :
    (String.utf8EncodeChar (pairChar u v)).length = 4 := by
  have hge : 0x10000 ≤ (pairChar u v).val.toNat := toNat_pairChar h
  have h1 : ¬ (pairChar u v).val.toNat ≤ 0x7f := by omega
  have h2 : ¬ (pairChar u v).val.toNat ≤ 0x7ff := by omega
  have h3 : ¬ (pairChar u v).val.toNat ≤ 0xffff := by omega
  simp only [String.utf8EncodeChar, h1, h2, h3, if_false, List.length_cons, List.length_nil]

/-- Modified UTF-8 never uses a NUL byte. -/
theorem zero_notMem_modifiedUnit (u : UInt16) : 0 ∉ modifiedUnit u := by
  have hlt := u.toNat_lt
  unfold modifiedUnit
  intro h
  dsimp only at h
  split at h
  · rename_i hone
    simp only [List.mem_singleton] at h
    exact ofNat_ne_zero (by omega) (by omega) h.symm
  · split at h
    · simp only [List.mem_cons, List.not_mem_nil, or_false] at h
      rcases h with h | h <;> exact ofNat_ne_zero (by omega) (by omega) h.symm
    · simp only [List.mem_cons, List.not_mem_nil, or_false] at h
      rcases h with h | h | h <;> exact ofNat_ne_zero (by omega) (by omega) h.symm

/-- UTF-8 uses a NUL byte for U+0000 only. -/
theorem zero_notMem_utf8EncodeChar {c : Char} (hc : c.toNat ≠ 0) :
    0 ∉ String.utf8EncodeChar c := by
  have hne : c.val.toNat ≠ 0 := hc
  unfold String.utf8EncodeChar
  intro h
  dsimp only at h
  split at h
  · simp only [List.mem_singleton] at h
    exact ofNat_ne_zero (by omega) (by omega) h.symm
  · split at h
    · simp only [List.mem_cons, List.not_mem_nil, or_false] at h
      rcases h with h | h <;> exact ofNat_ne_zero (by omega) (by omega) h.symm
    · split at h
      · simp only [List.mem_cons, List.not_mem_nil, or_false] at h
        rcases h with h | h | h <;> exact ofNat_ne_zero (by omega) (by omega) h.symm
      · simp only [List.mem_cons, List.not_mem_nil, or_false] at h
        rcases h with h | h | h | h <;> exact ofNat_ne_zero (by omega) (by omega) h.symm

/-! ## Strings -/

/-- Modified UTF-8 is longer than UTF-8 by two bytes for every supplementary character. -/
theorem length_modifiedUtf8 {s : Utf16} (hwf : WellFormed s) (hzero : 0 ∉ s) :
    (modifiedUtf8 s).length = (utf8 s).length + 2 * supplementary s := by
  unfold utf8 utf8Chars modifiedUtf8
  fun_induction decodeUtf16 s with
  | case1 => rfl
  | case2 u =>
      simp only [WellFormed] at hwf
      simp only [List.mem_singleton] at hzero
      simp [hwf, supplementary, modifiedUnit_eq hwf fun h => hzero h.symm]
  | case3 u v rest hpair ih =>
      -- a pair: two units of three bytes each, against one character of four
      simp only [WellFormed, hpair, if_true] at hwf
      simp only [List.mem_cons, not_or] at hzero
      have hboth := Bool.and_eq_true_iff.mp hpair
      have hu := length_modifiedUnit (u := u) (by simp [hboth.1])
      have hv := length_modifiedUnit (u := v) (by simp [hboth.2])
      have hchar := length_utf8_pairChar hpair
      have hrest := ih hwf hzero.2.2
      simp only [supplementary, hpair, if_true, List.flatMap_cons, List.length_append, hu, hv,
        hchar, hrest]
      omega
  | case4 u v rest hpair ih =>
      -- a unit by itself has the same bytes in both
      rw [WellFormed, if_neg hpair] at hwf
      simp only [List.mem_cons, not_or] at hzero
      have hunit := modifiedUnit_eq hwf.1 fun h => hzero.1 h.symm
      have hrest := ih hwf.2 (by simpa using hzero.2)
      rw [supplementary, if_neg hpair, if_neg hwf.1, List.flatMap_cons, List.length_append, hunit,
        hrest, List.flatMap_cons, List.length_append]
      omega

/-- A well-formed string of the basic plane has no supplementary character, and the converse. -/
theorem supplementary_eq_zero_iff {s : Utf16} (hwf : WellFormed s) :
    supplementary s = 0 ↔ Basic s := by
  unfold Basic
  fun_induction supplementary s with
  | case1 => simp
  | case2 u => simpa [WellFormed] using hwf
  | case3 u v rest hpair ih =>
      have hboth := Bool.and_eq_true_iff.mp hpair
      simp [hboth.1]
  | case4 u v rest hpair ih =>
      rw [WellFormed, if_neg hpair] at hwf
      rw [ih hwf.2, List.forall_mem_cons (l := v :: rest)]
      exact ⟨fun h => ⟨hwf.1, h⟩, fun h => h.2⟩

/-- On the basic plane the two encodings agree. -/
theorem modifiedUtf8_eq_utf8 {s : Utf16} (hbasic : Basic s) (hzero : 0 ∉ s) :
    modifiedUtf8 s = utf8 s := by
  unfold utf8 utf8Chars modifiedUtf8
  fun_induction decodeUtf16 s with
  | case1 => rfl
  | case2 u =>
      have hu := hbasic u List.mem_cons_self
      simp only [List.mem_singleton] at hzero
      simp [hu, modifiedUnit_eq hu fun h => hzero h.symm]
  | case3 u v rest hpair ih =>
      -- the first half of a pair is not on the basic plane
      have hu := hbasic u List.mem_cons_self
      simp [(Bool.and_eq_true_iff.mp hpair).1] at hu
  | case4 u v rest hpair ih =>
      have hu := hbasic u List.mem_cons_self
      simp only [List.mem_cons, not_or] at hzero
      have hrest := ih (fun w hw => hbasic w (List.mem_cons_of_mem _ hw)) (by simpa using hzero.2)
      rw [List.flatMap_cons, hrest, List.flatMap_cons, if_neg hu,
        modifiedUnit_eq hu fun h => hzero.1 h.symm]

/-- **The two encodings of a well-formed string without U+0000 agree exactly on the basic
plane.** -/
theorem modifiedUtf8_eq_utf8_iff {s : Utf16} (hwf : WellFormed s) (hzero : 0 ∉ s) :
    modifiedUtf8 s = utf8 s ↔ Basic s := by
  constructor
  · intro h
    have hlen := length_modifiedUtf8 hwf hzero
    rw [h] at hlen
    exact (supplementary_eq_zero_iff hwf).mp (by omega)
  · exact fun h => modifiedUtf8_eq_utf8 h hzero

/-! ## C strings -/

/-- A C string holds what was put before its terminator, when that has no NUL. -/
theorem goString_terminated {b : List UInt8} (h : 0 ∉ b) (rest : List UInt8) :
    goString (b ++ 0 :: rest) = b := by
  unfold goString
  rw [List.takeWhile_append_of_pos]
  · simp
  · intro x hx
    simp only [ne_eq, decide_eq_true_eq]
    exact fun hx0 => h (hx0 ▸ hx)

/-- A C string gives back what was put before its terminator exactly when that has no NUL. -/
theorem goString_terminated_iff (b : List UInt8) : goString (b ++ [0]) = b ↔ 0 ∉ b := by
  constructor
  · intro h hmem
    rw [← h] at hmem
    have hpos := List.mem_takeWhile_imp hmem
    simp at hpos
  · intro h
    exact goString_terminated h []

theorem zero_notMem_modifiedUtf8 (s : Utf16) : 0 ∉ modifiedUtf8 s := by
  simp only [modifiedUtf8, List.mem_flatMap, not_exists, not_and]
  exact fun u _ => zero_notMem_modifiedUnit u

/-- UTF-8 of a string without U+0000 has no NUL byte. -/
theorem zero_notMem_utf8 {s : Utf16} (hzero : 0 ∉ s) : 0 ∉ utf8 s := by
  have hunit : ∀ u : UInt16, u ≠ 0 →
      (if isHigh u || isLow u then replacementChar else unitChar u).toNat ≠ 0 := by
    intro u hu
    split
    · decide
    · rename_i hsurrogate
      rw [toNat_unitChar hsurrogate]
      exact fun h => hu (UInt16.toNat.inj h)
  unfold utf8 utf8Chars
  fun_induction decodeUtf16 s with
  | case1 => simp
  | case2 u =>
      simp only [List.mem_singleton] at hzero
      simpa using zero_notMem_utf8EncodeChar (hunit u fun h => hzero h.symm)
  | case3 u v rest hpair ih =>
      -- a pair stands for a character beyond U+FFFF, so not for U+0000
      simp only [List.mem_cons, not_or] at hzero
      have hchar := toNat_pairChar hpair
      rw [List.flatMap_cons, List.mem_append, not_or]
      exact ⟨zero_notMem_utf8EncodeChar (by omega), ih hzero.2.2⟩
  | case4 u v rest hpair ih =>
      simp only [List.mem_cons, not_or] at hzero
      rw [List.flatMap_cons, List.mem_append, not_or]
      exact ⟨zero_notMem_utf8EncodeChar (hunit u fun h => hzero.1 h.symm),
        ih (by simpa using hzero.2)⟩

/-- U+0000 leaves a NUL byte in UTF-8. -/
theorem zero_mem_utf8 {s : Utf16} (hzero : 0 ∈ s) : 0 ∈ utf8 s := by
  have hunit : (0 : UInt8) ∈ String.utf8EncodeChar
      (if isHigh 0 || isLow 0 then replacementChar else unitChar 0) := by decide
  unfold utf8 utf8Chars
  fun_induction decodeUtf16 s with
  | case1 => cases hzero
  | case2 u =>
      obtain rfl := List.mem_singleton.mp hzero
      simpa using hunit
  | case3 u v rest hpair ih =>
      -- neither half of a pair is U+0000
      have hboth := Bool.and_eq_true_iff.mp hpair
      rcases List.mem_cons.mp hzero with rfl | hzero
      · cases hboth.1
      · rcases List.mem_cons.mp hzero with rfl | hzero
        · cases hboth.2
        · exact List.mem_append_right _ (ih hzero)
  | case4 u v rest hpair ih =>
      rw [List.flatMap_cons]
      rcases List.mem_cons.mp hzero with rfl | hzero
      · exact List.mem_append_left _ hunit
      · exact List.mem_append_right _ (ih hzero)

/-! ## Decoding -/

/-- The number of a byte made from a small number. -/
theorem toNat_byte {n : Nat} (h : n < 256) : (UInt8.ofNat n).toNat = n := by
  rw [UInt8.toNat_ofNat']
  exact Nat.mod_eq_of_lt h

/-- A continuation byte and its payload. -/
theorem tail_byte {n : Nat} (h : n < 0x40) :
    isTail (UInt8.ofNat (n + 0x80)) = true ∧ tail (UInt8.ofNat (n + 0x80)) = n := by
  have hbyte := toNat_byte (show n + 0x80 < 256 by omega)
  constructor
  · simp only [isTail, hbyte, Bool.and_eq_true, decide_eq_true_eq]
    omega
  · show (UInt8.ofNat (n + 0x80)).toNat - 0x80 = n
    omega

/-- A byte below 0x80 is a character by itself. -/
theorem firstUtf8_ascii {a : UInt8} (h : a.toNat < 0x80) (rest : List UInt8) :
    firstUtf8 a rest = (Char.ofNat a.toNat, 0) := if_pos h

/-- A lead byte and one continuation byte. -/
theorem firstUtf8_two {a b : UInt8} {v : Nat} (hlow : 0x80 ≤ a.toNat) (hhigh : a.toNat < 0xE0)
    (hb : isTail b) (hvalue : (a.toNat - 0xC0) * 0x40 + tail b = v) (hv : 0x80 ≤ v)
    (rest : List UInt8) : firstUtf8 a (b :: rest) = (Char.ofNat v, 1) := by
  subst hvalue
  have hone : ¬ a.toNat < 0x80 := by omega
  exact (if_neg hone).trans ((if_pos hhigh).trans (if_pos (by simp [hv, hb])))

/-- A lead byte and two continuation bytes, for a number that is no surrogate. -/
theorem firstUtf8_three {a b c : UInt8} {v : Nat} (hlow : 0xE0 ≤ a.toNat) (hhigh : a.toNat < 0xF0)
    (hb : isTail b) (hc : isTail c)
    (hvalue : (a.toNat - 0xE0) * 0x1000 + tail b * 0x40 + tail c = v) (hv : 0x800 ≤ v)
    (hsurrogate : v < 0xD800 ∨ 0xDFFF < v) (rest : List UInt8) :
    firstUtf8 a (b :: c :: rest) = (Char.ofNat v, 2) := by
  subst hvalue
  have hrange : ∀ n : Nat, n < 0xD800 ∨ 0xDFFF < n →
      (!(decide (0xD800 ≤ n) && decide (n ≤ 0xDFFF))) = true := by
    intro n hn
    simp only [Bool.not_eq_true', Bool.and_eq_false_iff, decide_eq_false_iff_not]
    omega
  have hone : ¬ a.toNat < 0x80 := by omega
  have htwo : ¬ a.toNat < 0xE0 := by omega
  exact (if_neg hone).trans ((if_neg htwo).trans ((if_pos hhigh).trans
    (if_pos (by simp only [hv, hrange _ hsurrogate, hb, hc, decide_true, Bool.and_self]))))

/-- A lead byte and three continuation bytes. -/
theorem firstUtf8_four {a b c d : UInt8} {v : Nat} (hlow : 0xF0 ≤ a.toNat) (hb : isTail b)
    (hc : isTail c) (hd : isTail d)
    (hvalue : (a.toNat - 0xF0) * 0x40000 + tail b * 0x1000 + tail c * 0x40 + tail d = v)
    (hv : 0x10000 ≤ v) (hmax : v ≤ 0x10FFFF) (rest : List UInt8) :
    firstUtf8 a (b :: c :: d :: rest) = (Char.ofNat v, 3) := by
  subst hvalue
  have hone : ¬ a.toNat < 0x80 := by omega
  have htwo : ¬ a.toNat < 0xE0 := by omega
  have hthree : ¬ a.toNat < 0xF0 := by omega
  exact (if_neg hone).trans ((if_neg htwo).trans ((if_neg hthree).trans
    (if_pos (by simp only [hv, hmax, hb, hc, hd, decide_true, Bool.and_self]))))

/-- Decoding starts by giving back the character that was encoded first. -/
theorem decodeUtf8_utf8EncodeChar (c : Char) (rest : List UInt8) :
    decodeUtf8 (String.utf8EncodeChar c ++ rest) = c :: decodeUtf8 rest := by
  have hchar : Char.ofNat c.val.toNat = c := Char.ofNat_toNat c
  have hbound := c.valid
  simp only [UInt32.isValidChar, Nat.isValidChar] at hbound
  unfold String.utf8EncodeChar
  -- from here on the character is a number `v` that is a scalar value
  generalize c.val.toNat = v at hchar hbound
  subst hchar
  dsimp only
  obtain ⟨htail0, hval0⟩ := tail_byte (show v % 0x40 < 0x40 by omega)
  obtain ⟨htail1, hval1⟩ := tail_byte (show v / 64 % 0x40 < 0x40 by omega)
  obtain ⟨htail2, hval2⟩ := tail_byte (show v / 4096 % 0x40 < 0x40 by omega)
  split
  · -- one byte
    have hlead := toNat_byte (show v < 256 by omega)
    rw [List.singleton_append, decodeUtf8, decodeFrom, firstUtf8_ascii (by omega), hlead]
    rfl
  split
  · -- two bytes
    have hlead := toNat_byte (show v / 64 % 0x20 + 0xc0 < 256 by omega)
    have hvalue : ((UInt8.ofNat (v / 64 % 0x20 + 0xc0)).toNat - 0xC0) * 0x40 +
        tail (UInt8.ofNat (v % 0x40 + 0x80)) = v := by omega
    rw [List.cons_append, List.singleton_append, decodeUtf8, decodeFrom,
      firstUtf8_two (by omega) (by omega) htail0 hvalue (by omega)]
    rfl
  split
  · -- three bytes
    have hlead := toNat_byte (show v / 4096 % 0x10 + 0xe0 < 256 by omega)
    have hvalue : ((UInt8.ofNat (v / 4096 % 0x10 + 0xe0)).toNat - 0xE0) * 0x1000 +
        tail (UInt8.ofNat (v / 64 % 0x40 + 0x80)) * 0x40 +
        tail (UInt8.ofNat (v % 0x40 + 0x80)) = v := by omega
    rw [List.cons_append, List.cons_append, List.singleton_append, decodeUtf8, decodeFrom,
      firstUtf8_three (by omega) (by omega) htail1 htail0 hvalue (by omega) (by omega)]
    rfl
  · -- four bytes
    have hlead := toNat_byte (show v / 262144 % 0x08 + 0xf0 < 256 by omega)
    have hvalue : ((UInt8.ofNat (v / 262144 % 0x08 + 0xf0)).toNat - 0xF0) * 0x40000 +
        tail (UInt8.ofNat (v / 4096 % 0x40 + 0x80)) * 0x1000 +
        tail (UInt8.ofNat (v / 64 % 0x40 + 0x80)) * 0x40 +
        tail (UInt8.ofNat (v % 0x40 + 0x80)) = v := by omega
    rw [List.cons_append, List.cons_append, List.cons_append, List.singleton_append, decodeUtf8,
      decodeFrom, firstUtf8_four (by omega) htail2 htail1 htail0 hvalue (by omega) (by omega)]
    rfl

/-- Decoding UTF-8 gives back the text that was encoded. -/
theorem decodeUtf8_utf8Chars (cs : List Char) : decodeUtf8 (utf8Chars cs) = cs := by
  unfold utf8Chars
  induction cs with
  | nil => rfl
  | cons c cs ih => rw [List.flatMap_cons, decodeUtf8_utf8EncodeChar, ih]

/-- Encoding gives back a well-formed string from its scalar values. -/
theorem encodeUtf16_decodeUtf16 {s : Utf16} (hwf : WellFormed s) :
    encodeUtf16 (decodeUtf16 s) = s := by
  have hunit : ∀ u : UInt16, ¬ (isHigh u || isLow u) → encodeChar (unitChar u) = [u] := by
    intro u hu
    have hlt := u.toNat_lt
    rw [encodeChar, toNat_unitChar hu, if_pos (by omega), UInt16.ofNat_toNat]
  unfold encodeUtf16
  fun_induction decodeUtf16 s with
  | case1 => rfl
  | case2 u =>
      simp only [WellFormed] at hwf
      rw [if_neg hwf, List.flatMap_singleton, hunit u hwf]
  | case3 u v rest hpair ih =>
      rw [WellFormed, if_pos hpair] at hwf
      rw [List.flatMap_cons, ih hwf, encodeChar_pairChar hpair]
      rfl
  | case4 u v rest hpair ih =>
      rw [WellFormed, if_neg hpair] at hwf
      rw [if_neg hwf.1, List.flatMap_cons, ih hwf.2, hunit u hwf.1]
      rfl

/-- **Well-formed strings with the same UTF-8 are the same.** -/
theorem utf8_injective {s t : Utf16} (hs : WellFormed s) (ht : WellFormed t)
    (h : utf8 s = utf8 t) : s = t := by
  have hchars := congrArg decodeUtf8 h
  rw [utf8, utf8, decodeUtf8_utf8Chars, decodeUtf8_utf8Chars] at hchars
  rw [← encodeUtf16_decodeUtf16 hs, hchars, encodeUtf16_decodeUtf16 ht]

/-- ASCII bytes stand for themselves in modified UTF-8. -/
theorem decodeModified_ascii {b : List UInt8} (h : ∀ x ∈ b, x.toNat < 0x80) :
    decodeModified b = b.map fun x => UInt16.ofNat x.toNat := by
  unfold decodeModified
  induction b with
  | nil => rfl
  | cons x b ih =>
      have hfirst : firstModified x b = (UInt16.ofNat x.toNat, 0) :=
        if_pos (h x List.mem_cons_self)
      rw [decodeModifiedFrom, hfirst, ih fun y hy => h y (List.mem_cons_of_mem _ hy),
        List.map_cons]

/-- ASCII bytes stand for themselves in UTF-8. -/
theorem encodeUtf16_decodeUtf8_ascii {b : List UInt8} (h : ∀ x ∈ b, x.toNat < 0x80) :
    encodeUtf16 (decodeUtf8 b) = b.map fun x => UInt16.ofNat x.toNat := by
  unfold encodeUtf16 decodeUtf8
  induction b with
  | nil => rfl
  | cons x b ih =>
      have hx := h x List.mem_cons_self
      have hvalid : x.toNat.isValidChar := .inl (by omega)
      rw [decodeFrom, firstUtf8_ascii hx, List.flatMap_cons,
        ih fun y hy => h y (List.mem_cons_of_mem _ hy), encodeChar, toNat_ofNat hvalid,
        if_pos (by omega), List.map_cons]
      rfl

end Foundation
