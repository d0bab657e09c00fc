import Kipfs.Kotlin.Native

/-!
# Multibase across the C boundary

`multibase.kt` and the two multibase exports, put together as `MultibaseTests.kt` does: encode, read
the text up to its terminating NUL, decode it with its length, and look the reported code up. On
the way a code is a 16-bit `Char` and a text ends at its first NUL. `roundTrips_iff` says which
encodings survive both.
-/

namespace Kipfs

open Foundation

/-- `MultibaseEncoding`. -/
inductive MultibaseEncoding where
  | Identity
  | Base2
  | Base8
  | Base10
  | Base16
  | Base16Upper
  | Base32
  | Base32Upper
  | Base32pad
  | Base32padUpper
  | Base32hex
  | Base32hexUpper
  | Base32hexPad
  | Base32hexPadUpper
  | Base36
  | Base36Upper
  | Base58BTC
  | Base58Flickr
  | Base64
  | Base64url
  | Base64pad
  | Base64urlPad
  | Base256Emoji
  deriving DecidableEq, Repr

namespace MultibaseEncoding

/-- `Int.toChar`, which keeps the low 16 bits. -/
def toChar (n : Nat) : UInt16 := UInt16.ofNat n

/-- The property `encoding`. -/
def encoding : MultibaseEncoding → UInt16
  | Identity => toChar 0
  | Base2 => 48
  | Base8 => 55
  | Base10 => 57
  | Base16 => 102
  | Base16Upper => 70
  | Base32 => 98
  | Base32Upper => 66
  | Base32pad => 99
  | Base32padUpper => 67
  | Base32hex => 118
  | Base32hexUpper => 86
  | Base32hexPad => 116
  | Base32hexPadUpper => 84
  | Base36 => 107
  | Base36Upper => 75
  | Base58BTC => 122
  | Base58Flickr => 90
  | Base64 => 109
  | Base64url => 117
  | Base64pad => 77
  | Base64urlPad => 85
  | Base256Emoji => toChar 128640

/-- `encoding.code`. -/
def code (e : MultibaseEncoding) : Int := e.encoding.toNat

/-- `values()`. -/
def values : List MultibaseEncoding :=
  [Identity, Base2, Base8, Base10, Base16, Base16Upper, Base32, Base32Upper, Base32pad,
    Base32padUpper, Base32hex, Base32hexUpper, Base32hexPad, Base32hexPadUpper, Base36, Base36Upper,
    Base58BTC, Base58Flickr, Base64, Base64url, Base64pad, Base64urlPad, Base256Emoji]

/-- `MultibaseEncoding.valueOf`; none where `first` finds no element. -/
def valueOf (encoding : Int) : Option MultibaseEncoding := values.find? fun e => e.code = encoding

/-- The code point that the multibase table gives an encoding. -/
def codePoint : MultibaseEncoding → Int
  | Base256Emoji => 0x1F680
  | e => e.code

/-- The encodings that `go-multibase` has. -/
def Supported (e : MultibaseEncoding) : Prop := e ≠ Base8 ∧ e ≠ Base10

instance (e : MultibaseEncoding) : Decidable e.Supported := inferInstanceAs (Decidable (_ ∧ _))

/-- Every encoding is found again by its code. -/
theorem valueOf_code (e : MultibaseEncoding) : valueOf e.code = some e := by
  cases e <;> decide

/-- A code is the code point of the table for all encodings but the last. -/
theorem codePoint_eq_code {e : MultibaseEncoding} (h : e ≠ Base256Emoji) :
    e.codePoint = e.code := by
  cases e with
  | Base256Emoji => exact absurd rfl h
  | _ => rfl

/-- The code of the last encoding, cut to 16 bits, is no code point of the table. -/
theorem code_base256Emoji_ne (e : MultibaseEncoding) : e.codePoint ≠ Base256Emoji.code := by
  cases e <;> decide

end MultibaseEncoding

open MultibaseEncoding

/-- What `go-multibase` documents. -/
structure Multibase.Documented (multibase : Multibase) : Prop where
  decode_encode : ∀ e : MultibaseEncoding, e.Supported → ∀ d, ∃ text,
    multibase.Encode e.codePoint d = .ok text ∧ multibase.Decode text = .ok (e.codePoint, d)
  identity : ∀ d, multibase.Encode 0 d = .ok (0 :: d)
  zero_notMem : ∀ e : MultibaseEncoding, e.Supported → e ≠ Identity → ∀ d text,
    multibase.Encode e.codePoint d = .ok text → 0 ∉ text
  encode_unsupported : ∀ c, (∀ e : MultibaseEncoding, e.Supported → e.codePoint ≠ c) →
    ∀ d, ∃ err, multibase.Encode c d = .error err
  decode_nil : ∃ err, multibase.Decode [] = .error err

section RoundTrip

variable (env : Env)

/-- The bytes of a C string, as an array; an array has fewer than 2³¹ elements. -/
def readText (id : Nat) : Prog Bytes := do
  let memory ← heapBytes id
  let text := goString memory
  if text.length < 2 ^ 31 then pure text else throwException (kstring "OutOfMemoryError")

/-- `multibaseEncode`. -/
def multibaseEncode (e : MultibaseEncoding) (data : Bytes) : Prog Bytes := do
  let (r0, r1) ← KMultiBaseEncode env e.code data data.length
  throwIfError "" r1
  readText (← notNull r0)

/-- `multibaseDecode`. -/
def multibaseDecode (text : Bytes) : Prog (MultibaseEncoding × Bytes) := do
  let r ← KMultiBaseDecode env text text.length
  throwIfError "" r.r3
  let encoding ← orAbort (.thrown (kstring "NoSuchElementException")) (valueOf r.r0)
  let data ← readBytes (← notNull r.r1) r.r2
  pure (encoding, data)

/-- Encode, and decode the text. -/
def roundTrip (e : MultibaseEncoding) (data : Bytes) : Prog (MultibaseEncoding × Bytes) := do
  multibaseDecode env (← multibaseEncode env e data)

/-- The round trip gives back the encoding and the data. -/
def RoundTrips (e : MultibaseEncoding) (data : Bytes) (p : Process) : Prop :=
  ∃ p', (roundTrip env e data).run p = .ok (e, data) p'

end RoundTrip

section Runs

variable {env : Env} {e : MultibaseEncoding} {d text : Bytes} {p : Process}

/-- The text of some data, read up to its first NUL if an array can hold it. -/
theorem run_multibaseEncode (h : env.multibase.Encode e.code d = .ok text) :
    (multibaseEncode env e d).run p =
      if (goString (text ++ [0])).length < 2 ^ 31 then
        .ok (goString (text ++ [0])) { p with memory := p.memory.add (.heap (text ++ [0])) }
      else
        .error (.thrown (kstring "OutOfMemoryError"))
          { p with memory := p.memory.add (.heap (text ++ [0])) } := by
  simp only [multibaseEncode, KMultiBaseEncode, GoBytes_length, pure_bind, h, bind_assoc,
    EStateM.run_bind, run_CString, throwIfError, notNull, orAbort_some, readText]
  rw [run_heapBytes (Ledger.find_add_self _ _)]
  dsimp only
  split <;> rfl

/-- An error of the encoder is thrown. -/
theorem run_multibaseEncode_error {err : GoError} (h : env.multibase.Encode e.code d = .error err) :
    ∃ a p', (multibaseEncode env e d).run p = .error a p' := by
  simp [multibaseEncode, KMultiBaseEncode, h, throwIfError, copyToKString, free, throwException]

/-- An error of the decoder is thrown. -/
theorem run_multibaseDecode_error {err : GoError} (h : env.multibase.Decode text = .error err) :
    ∃ a p', (multibaseDecode env text).run p = .error a p' := by
  simp [multibaseDecode, KMultiBaseDecode, h, throwIfError, copyToKString, free, throwException]

/-- A decoded text is reported with its encoding and all of its data. -/
theorem run_multibaseDecode (h : env.multibase.Decode text = .ok (e.code, d))
    (hlen : d.length < 2 ^ 31) :
    (multibaseDecode env text).run p =
      .ok (e, d) { p with memory := p.memory.add (.heap (d ++ [0])) } := by
  have hcode : toInt32 e.code = e.code := by cases e <;> decide
  simp only [multibaseDecode, KMultiBaseDecode, GoBytes_length, pure_bind, h, bind_assoc,
    EStateM.run_bind, run_CString, throwIfError, notNull, orAbort_some, hcode, valueOf_code,
    toInt32_length hlen]
  rw [run_readBytes (Ledger.find_add_self _ _) (by simp)]
  simp

end Runs

section RoundTrips

variable {env : Env} {e : MultibaseEncoding} {d : Bytes} {p : Process}

/-- A round trip fails when the encoding does. -/
theorem not_roundTrips_of_encode {a : Abort} {p' : Process}
    (h : (multibaseEncode env e d).run p = .error a p') : ¬ RoundTrips env e d p := by
  rintro ⟨p'', hrun⟩
  rw [roundTrip, EStateM.run_bind, h] at hrun
  cases hrun

/-- The text of the identity encoding ends before its first byte, and nothing is decoded. -/
theorem not_roundTrips_identity (h : env.multibase.Documented) :
    ¬ RoundTrips env .Identity d p := by
  obtain ⟨err, hnil⟩ := h.decode_nil
  rintro ⟨p', hrun⟩
  have htext : env.multibase.Encode (code .Identity) d = .ok (0 :: d) := h.identity d
  have hread : goString (0 :: d ++ [0]) = [] := rfl
  rw [roundTrip, EStateM.run_bind, run_multibaseEncode htext, hread, if_pos (by decide)] at hrun
  obtain ⟨_, _, hfail⟩ := run_multibaseDecode_error
    (p := { p with memory := p.memory.add (.heap (0 :: d ++ [0])) }) hnil
  exact nomatch hrun.symm.trans hfail

/-- The code of the emoji encoding is refused. -/
theorem not_roundTrips_base256Emoji (h : env.multibase.Documented) :
    ¬ RoundTrips env .Base256Emoji d p := by
  obtain ⟨err, hcode⟩ := h.encode_unsupported _ (fun e _ => code_base256Emoji_ne e) d
  obtain ⟨_, _, hfail⟩ := run_multibaseEncode_error (p := p) hcode
  exact not_roundTrips_of_encode hfail

/-- **An encoding and a byte array survive the round trip exactly when the encoding is neither the
identity, whose text starts with a NUL, nor base256emoji, whose code does not fit a `Char`, and the
text is short enough for a 32-bit length.** -/
theorem roundTrips_iff (h : env.multibase.Documented) (hsupported : e.Supported)
    (hd : d.length < 2 ^ 31) :
    RoundTrips env e d p ↔ e ≠ .Identity ∧ e ≠ .Base256Emoji ∧
      ∀ text, env.multibase.Encode e.codePoint d = .ok text → text.length < 2 ^ 31 := by
  constructor
  · intro htrips
    have hidentity : e ≠ .Identity := by
      rintro rfl
      exact not_roundTrips_identity h htrips
    have hemoji : e ≠ .Base256Emoji := by
      rintro rfl
      exact not_roundTrips_base256Emoji h htrips
    refine ⟨hidentity, hemoji, fun text htext => ?_⟩
    -- a text too long for an array cannot be read back
    have hzero := h.zero_notMem e hsupported hidentity d text htext
    rw [codePoint_eq_code hemoji] at htext
    by_contra hlong
    have hrun := run_multibaseEncode (p := p) htext
    rw [goString_terminated hzero, if_neg hlong] at hrun
    exact not_roundTrips_of_encode hrun htrips
  · rintro ⟨hidentity, hemoji, hlen⟩
    -- without a NUL the text read back is the text encoded
    obtain ⟨text, htext, hdecode⟩ := h.decode_encode e hsupported d
    have hzero := h.zero_notMem e hsupported hidentity d text htext
    have hshort := hlen text htext
    rw [codePoint_eq_code hemoji] at htext hdecode
    unfold RoundTrips
    rw [roundTrip, EStateM.run_bind, run_multibaseEncode htext, goString_terminated hzero,
      if_pos hshort]
    exact ⟨_, run_multibaseDecode hdecode hd⟩

end RoundTrips

/-! ## A library of hexadecimal encodings -/

/-- A lower-case hexadecimal digit. -/
def hexDigit (n : Nat) : UInt8 := if n < 10 then UInt8.ofNat (48 + n) else UInt8.ofNat (87 + n)

/-- Two digits for each byte. -/
def hex (d : Bytes) : Bytes := d.flatMap fun b => [hexDigit (b.toNat / 16), hexDigit (b.toNat % 16)]

/-- The value of a digit. -/
def hexValue (c : UInt8) : Nat := if c.toNat < 58 then c.toNat - 48 else c.toNat - 87

/-- The bytes of a text of digits. -/
def unhex : Bytes → Bytes
  | high :: low :: rest => UInt8.ofNat (16 * hexValue high + hexValue low) :: unhex rest
  | _ => []

/-- The bytes a text starts with under an encoding. -/
def tag : MultibaseEncoding → Bytes
  | .Base256Emoji => [0xF0, 0x9F, 0x9A, 0x80]
  | e => [UInt8.ofNat e.encoding.toNat]

/-- A multibase library for runs on fixed inputs. Its identity and base16 are the real ones; the
other encodings are hexadecimal behind their own code. -/
def hexMultibase : Multibase where
  Encode c d :=
    match values.find? fun e => e.Supported ∧ e.codePoint = c with
    | none => .error (.other [])
    | some .Identity => .ok (0 :: d)
    | some e => .ok (tag e ++ hex d)
  Decode text :=
    match values.find? fun e => e.Supported ∧ (tag e).isPrefixOf text with
    | none => .error (.other [])
    | some .Identity => .ok (0, text.drop 1)
    | some e => .ok (e.codePoint, unhex (text.drop (tag e).length))

/-- A digit is read back as its value. -/
theorem hexValue_hexDigit : ∀ n < 16, hexValue (hexDigit n) = n := by decide

theorem hexDigit_ne_zero : ∀ n < 16, hexDigit n ≠ 0 := by decide

/-- Digits are read back as they were written. -/
theorem unhex_hex (d : Bytes) : unhex (hex d) = d := by
  induction d with
  | nil => rfl
  | cons b d ih =>
      have hlt := b.toNat_lt
      have hbyte : 16 * (b.toNat / 16) + b.toNat % 16 = b.toNat := by omega
      show UInt8.ofNat (16 * hexValue (hexDigit (b.toNat / 16)) +
        hexValue (hexDigit (b.toNat % 16))) :: unhex (hex d) = b :: d
      rw [hexValue_hexDigit _ (by omega), hexValue_hexDigit _ (by omega), hbyte,
        UInt8.ofNat_toNat, ih]

/-- No digit is NUL. -/
theorem zero_notMem_hex (d : Bytes) : 0 ∉ hex d := by
  intro h
  obtain ⟨b, _, hb⟩ := List.mem_flatMap.mp h
  have hlt := b.toNat_lt
  rcases List.mem_cons.mp hb with hhigh | hlow
  · exact hexDigit_ne_zero _ (by omega) hhigh.symm
  · exact hexDigit_ne_zero _ (by omega) (List.mem_singleton.mp hlow).symm

/-- The library has every supported encoding under its code point. -/
theorem find_codePoint {e : MultibaseEncoding} (h : e.Supported) :
    (values.find? fun e' => e'.Supported ∧ e'.codePoint = e.codePoint) = some e := by
  revert h
  cases e <;> decide

/-- The library knows a text by its first bytes. -/
theorem find_tag {e : MultibaseEncoding} (h : e.Supported) (rest : Bytes) :
    (values.find? fun e' => e'.Supported ∧ (tag e').isPrefixOf (tag e ++ rest)) = some e := by
  cases e with
  | Base8 => exact absurd rfl h.1
  | Base10 => exact absurd rfl h.2
  | _ => rfl

/-- The text of an encoding other than the identity. -/
theorem encode_hexMultibase {e : MultibaseEncoding} (h : e.Supported) (hidentity : e ≠ .Identity)
    (d : Bytes) : hexMultibase.Encode e.codePoint d = .ok (tag e ++ hex d) := by
  simp only [hexMultibase]
  rw [find_codePoint h]
  cases e with
  | Identity => exact absurd rfl hidentity
  | _ => rfl

/-- What the text of an encoding other than the identity is decoded to. -/
theorem decode_hexMultibase {e : MultibaseEncoding} (h : e.Supported) (hidentity : e ≠ .Identity)
    (d : Bytes) : hexMultibase.Decode (tag e ++ hex d) = .ok (e.codePoint, d) := by
  simp only [hexMultibase]
  rw [find_tag h]
  cases e with
  | Identity => exact absurd rfl hidentity
  | _ => exact congrArg (fun d' => Except.ok (_, d')) (unhex_hex d)

/-- The library is as documented. -/
theorem hexMultibase_documented : hexMultibase.Documented where
  decode_encode e h d := by
    by_cases hidentity : e = .Identity
    · subst hidentity
      exact ⟨0 :: d, rfl, rfl⟩
    · exact ⟨_, encode_hexMultibase h hidentity d, decode_hexMultibase h hidentity d⟩
  identity _ := rfl
  zero_notMem e h hidentity d text htext := by
    rw [encode_hexMultibase h hidentity d] at htext
    cases htext
    have htag : 0 ∉ tag e := by
      revert hidentity
      cases e <;> decide
    exact fun hmem => (List.mem_append.mp hmem).elim htag (zero_notMem_hex d)
  encode_unsupported c h d := by
    have hfind : (values.find? fun e => e.Supported ∧ e.codePoint = c) = none := by
      rw [List.find?_eq_none]
      intro e _ he
      obtain ⟨hsupported, hcode⟩ := of_decide_eq_true he
      exact h e hsupported hcode
    exact ⟨.other [], by simp only [hexMultibase, hfind]⟩
  decode_nil := ⟨_, rfl⟩

/-- `standalone`, with this library. -/
def standaloneHex : Env := { standalone with multibase := hexMultibase }

/-- The bytes 0 and 255 survive base16. -/
theorem roundTrips_base16 : RoundTrips standaloneHex .Base16 [0, 255] Process.start :=
  (roundTrips_iff hexMultibase_documented (by decide) (by decide)).mpr
    ⟨by decide, by decide, fun _ htext => by cases htext; decide⟩

/-- The byte 1 does not survive the identity encoding, and no bytes do not survive base256emoji. -/
theorem not_roundTrips :
    ¬ RoundTrips standaloneHex .Identity [1] Process.start ∧
      ¬ RoundTrips standaloneHex .Base256Emoji [] Process.start :=
  ⟨not_roundTrips_identity hexMultibase_documented,
    not_roundTrips_base256Emoji hexMultibase_documented⟩

end Kipfs
