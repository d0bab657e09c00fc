import Kipfs.Foundation.Unicode
import Kipfs.Go.Ipfsapi

/-!
# Content identifiers

`cids.go`: three copies of the pipeline from a text to the identifier of its node, over codecs
that are parameters. A decoder leaves the builder it was given complete or incomplete and may
report an error besides; building from an incomplete builder panics. Two of the copies lose the
error of the decoder, and `waysAgree_iff` says on which texts that shows.
-/

namespace Kipfs

open Foundation

/-- The third-party codecs, with the type of nodes they share. A decoder gives the node its
builder has assembled, if any, and its error. -/
structure Codecs where
  Node : Type
  decodeJson : Bytes → Option Node × Option GoError
  decodeCbor : Bytes → Option Node × Option GoError
  encodeCbor : Node → Except GoError Bytes
  sum : Bytes → Except GoError Bytes

namespace Cids

variable (codecs : Codecs)

/-- `nb.Build()`. -/
def Build : Option codecs.Node → Except GoPanic codecs.Node
  | some node => .ok node
  | none => .error .nilDereference

/-- `panic(err)` unless there is no error. -/
def panicOn {α : Type} : Except GoError α → Except GoPanic α
  | .ok a => .ok a
  | .error err => .error (.value err.text)

/-- `JsonToCbor`. The error of the decoder is overwritten by that of the encoder. -/
def JsonToCbor (json : Bytes) : Except GoPanic Bytes := do
  let node ← Build codecs (codecs.decodeJson json).1
  panicOn (codecs.encodeCbor node)

/-- `DagCid`. The error of the decoder is overwritten by that of the encoder. -/
def DagCid (data : Bytes) : Except GoPanic Bytes := do
  let node ← Build codecs (codecs.decodeJson data).1
  let buf ← panicOn (codecs.encodeCbor node)
  panicOn (codecs.sum buf)

/-- The `format` of `DagCidBytes`: one of the two it knows, or any other string. -/
inductive Format where
  | json
  | cbor
  | other
  deriving DecidableEq, Repr

/-- What `DagCidBytes` decodes with, for a format it knows. -/
def decoder : Format → Option (Bytes → Option codecs.Node × Option GoError)
  | .json => some codecs.decodeJson
  | .cbor => some codecs.decodeCbor
  | .other => none

/-- `DagCidBytes`. -/
def DagCidBytes (data : Bytes) (format : Format) : Except GoPanic Bytes :=
  match decoder codecs format with
  | none => .error (.value (utf8Chars "format should be json or cbor".toList))
  | some decode =>
      match decode data with
      | (_, some err) => .error (.value err.text)
      | (built, none) => do
          let node ← Build codecs built
          let buf ← panicOn (codecs.encodeCbor node)
          panicOn (codecs.sum buf)

/-! ## Agreement of the three ways -/

variable {codecs} {s data buf c : Bytes} {node : codecs.Node} {format : Format}

/-- `c` identifies `node`: it is the sum of its encoding. -/
def Identifies (codecs : Codecs) (node : codecs.Node) (c : Bytes) : Prop :=
  ∃ buf, codecs.encodeCbor node = .ok buf ∧ codecs.sum buf = .ok c

theorem Build_eq_ok {built : Option codecs.Node} :
    Build codecs built = .ok node ↔ built = some node := by
  cases built with
  | none => simp [Build]
  | some other => simp [Build]

theorem panicOn_eq_ok {α : Type} {result : Except GoError α} {a : α} :
    panicOn result = .ok a ↔ result = .ok a := by
  cases result with
  | error err => simp [panicOn]
  | ok b => simp [panicOn]

/-- A pipeline returns when its first stage does and the others do on what it gives. -/
theorem except_bind_eq_ok {α β : Type} {m : Except GoPanic α} {f : α → Except GoPanic β} {b : β} :
    m >>= f = .ok b ↔ ∃ a, m = .ok a ∧ f a = .ok b := by
  cases m with
  | error panic => simp [bind, Except.bind]
  | ok a => simp [bind, Except.bind]

/-- `JsonToCbor` returns on every text whose node is complete and has an encoding. -/
theorem JsonToCbor_eq_ok :
    JsonToCbor codecs s = .ok buf ↔
      ∃ node, (codecs.decodeJson s).1 = some node ∧ codecs.encodeCbor node = .ok buf := by
  simp only [JsonToCbor, except_bind_eq_ok, Build_eq_ok, panicOn_eq_ok]

/-- `DagCid` returns on every text whose node is complete and has an identifier, whatever error
the decoder reports. -/
theorem DagCid_eq_ok :
    DagCid codecs s = .ok c ↔
      ∃ node, (codecs.decodeJson s).1 = some node ∧ Identifies codecs node c := by
  simp only [DagCid, except_bind_eq_ok, Build_eq_ok, panicOn_eq_ok, Identifies]

/-- `DagCidBytes` returns only when its decoder reports no error. -/
theorem DagCidBytes_eq_ok (decode : Bytes → Option codecs.Node × Option GoError)
    (hdecode : decoder codecs format = some decode) :
    DagCidBytes codecs data format = .ok c ↔
      ∃ node, decode data = (some node, none) ∧ Identifies codecs node c := by
  obtain ⟨⟨built, err⟩, hbuilt⟩ : ∃ result, decode data = result := ⟨_, rfl⟩
  cases err with
  | some err => simp [DagCidBytes, hdecode, hbuilt]
  | none =>
      simp only [DagCidBytes, hdecode, hbuilt, except_bind_eq_ok, Build_eq_ok, panicOn_eq_ok,
        Identifies, Prod.mk.injEq, and_true]

/-- Decoding an encoded node succeeds, with a node that is encoded to the same bytes. -/
def Reencodes (codecs : Codecs) : Prop :=
  ∀ node buf, codecs.encodeCbor node = .ok buf →
    ∃ decoded, codecs.decodeCbor buf = (some decoded, none) ∧ codecs.encodeCbor decoded = .ok buf

/-- The bytes of a node have the identifier of the node. -/
theorem DagCidBytes_encodeCbor (hcodecs : Reencodes codecs)
    (hbuf : codecs.encodeCbor node = .ok buf) :
    DagCidBytes codecs buf .cbor = .ok c ↔ Identifies codecs node c := by
  obtain ⟨decoded, hdecoded, hagain⟩ := hcodecs node buf hbuf
  rw [DagCidBytes_eq_ok codecs.decodeCbor rfl]
  constructor
  · intro h
    obtain ⟨other, hother, buf', hbuf', hsum⟩ := h
    obtain rfl : decoded = other := by simpa [hdecoded] using hother
    obtain rfl : buf = buf' := by simpa [hagain] using hbuf'
    exact ⟨buf, hbuf, hsum⟩
  · intro h
    obtain ⟨buf', hbuf', hsum⟩ := h
    obtain rfl : buf = buf' := by simpa [hbuf] using hbuf'
    exact ⟨decoded, hdecoded, buf, hagain, hsum⟩

/-- The way through `JsonToCbor` gives what `DagCid` does, error or not. -/
theorem DagCidBytes_JsonToCbor (hcodecs : Reencodes codecs) :
    (∃ buf, JsonToCbor codecs s = .ok buf ∧ DagCidBytes codecs buf .cbor = .ok c) ↔
      DagCid codecs s = .ok c := by
  constructor
  · intro h
    obtain ⟨buf, hjson, hcid⟩ := h
    obtain ⟨node, hnode, hbuf⟩ := JsonToCbor_eq_ok.mp hjson
    exact DagCid_eq_ok.mpr ⟨node, hnode, (DagCidBytes_encodeCbor hcodecs hbuf).mp hcid⟩
  · intro h
    obtain ⟨node, hnode, hid⟩ := DagCid_eq_ok.mp h
    obtain ⟨buf, hbuf, hsum⟩ := hid
    exact ⟨buf, JsonToCbor_eq_ok.mpr ⟨node, hnode, hbuf⟩,
      (DagCidBytes_encodeCbor hcodecs hbuf).mpr ⟨buf, hbuf, hsum⟩⟩

/-- The three ways from a text to an identifier agree, and none of them returns one when the
decoder reports an error. -/
structure WaysAgree (codecs : Codecs) (s : Bytes) : Prop where
  bytes : ∀ c, DagCid codecs s = .ok c ↔ DagCidBytes codecs s .json = .ok c
  cbor : ∀ c, DagCid codecs s = .ok c ↔
    ∃ buf, JsonToCbor codecs s = .ok buf ∧ DagCidBytes codecs buf .cbor = .ok c
  refused : ∀ err, (codecs.decodeJson s).2 = some err → ∀ c,
    DagCid codecs s ≠ .ok c ∧ DagCidBytes codecs s .json ≠ .ok c ∧
      ∀ buf, JsonToCbor codecs s = .ok buf → DagCidBytes codecs buf .cbor ≠ .ok c

/-- The decoder reports an error on a text from which it has assembled a complete node, one that
has an identifier: there is content after the document. -/
def Overread (codecs : Codecs) (s : Bytes) : Prop :=
  ∃ node err, codecs.decodeJson s = (some node, some err) ∧ ∃ c, Identifies codecs node c

/-- **The three ways to an identifier agree exactly on the texts that are not overread.** -/
theorem waysAgree_iff (codecs : Codecs) (hcodecs : Reencodes codecs) (s : Bytes) :
    WaysAgree codecs s ↔ ¬ Overread codecs s := by
  constructor
  · intro h hover
    obtain ⟨node, err, hdecoded, c, hid⟩ := hover
    have hcid : DagCid codecs s = .ok c := DagCid_eq_ok.mpr ⟨node, by simp [hdecoded], hid⟩
    exact (h.refused err (by simp [hdecoded]) c).1 hcid
  · intro hover
    -- Where `DagCid` returns there is no error, so `DagCidBytes` sees the same node.
    have hclean : ∀ c, DagCid codecs s = .ok c →
        ∃ node, codecs.decodeJson s = (some node, none) ∧ Identifies codecs node c := by
      intro c hcid
      obtain ⟨node, hnode, hid⟩ := DagCid_eq_ok.mp hcid
      cases herr : (codecs.decodeJson s).2 with
      | none => exact ⟨node, Prod.ext hnode herr, hid⟩
      | some err => exact absurd ⟨node, err, Prod.ext hnode herr, c, hid⟩ hover
    have hbytes : ∀ c, DagCid codecs s = .ok c ↔ DagCidBytes codecs s .json = .ok c := by
      intro c
      rw [DagCidBytes_eq_ok codecs.decodeJson rfl]
      refine ⟨hclean c, ?_⟩
      intro h
      obtain ⟨node, hnode, hid⟩ := h
      exact DagCid_eq_ok.mpr ⟨node, by simp [hnode], hid⟩
    refine ⟨hbytes, fun c => (DagCidBytes_JsonToCbor hcodecs).symm, ?_⟩
    intro err herr c
    have hnone : DagCid codecs s ≠ .ok c := by
      intro hcid
      obtain ⟨node, hnode, _⟩ := hclean c hcid
      simp [hnode] at herr
    refine ⟨hnone, fun h => hnone ((hbytes c).mpr h), ?_⟩
    intro buf hbuf hcid
    exact hnone ((DagCidBytes_JsonToCbor hcodecs).mp ⟨buf, hbuf, hcid⟩)

/-- A Go string of the characters of `text`. -/
def lit (text : String) : Bytes :=
  utf8Chars text.toList

/-- What may follow a document. -/
def blank (b : UInt8) : Bool :=
  b = 0 || b = 9 || b = 10 || b = 13 || b = 32

/-- The codecs on the document `null`. Content after it is an error, which is reported when the
node is complete. -/
def nullCodecs : Codecs where
  Node := Unit
  decodeJson text :=
    match List.isPrefixOf? (lit "null") text with
    | none => (none, some (.other (lit "invalid char while expecting start of value")))
    | some rest =>
        if rest.all blank then (some (), none)
        else (some (), some (.other (lit "unexpected content after end of json object")))
  decodeCbor data :=
    if data = [0xF6] then (some (), none) else (none, some (.other (lit "not a null")))
  encodeCbor _ := .ok [0xF6]
  sum _ := .ok (lit "bafyreifqwkmiw256ojf2zws6tzjeonw6bpd5vza4i22ccpcq4hjv2ts7cm")

theorem nullCodecs_reencodes : Reencodes nullCodecs := by
  intro node buf h
  obtain rfl : [0xF6] = buf := by simpa [nullCodecs] using h
  exact ⟨(), rfl, rfl⟩

/-- The ways agree on `null` followed by a space. -/
theorem waysAgree_null : WaysAgree nullCodecs (lit "null ") := by
  refine (waysAgree_iff nullCodecs nullCodecs_reencodes (lit "null ")).mpr ?_
  intro hover
  obtain ⟨node, err, hdecoded, _⟩ := hover
  have hclean : (nullCodecs.decodeJson (lit "null ")).2 = none := rfl
  simp [hdecoded] at hclean

/-- On `null null` the way over `DagCidBytes` ends in a panic; `DagCid` and the way over
`JsonToCbor` give the identifier of `null`. -/
theorem overread_null :
    (∃ message, DagCidBytes nullCodecs (lit "null null") .json = .error (.value message)) ∧
      DagCid nullCodecs (lit "null null") =
        .ok (lit "bafyreifqwkmiw256ojf2zws6tzjeonw6bpd5vza4i22ccpcq4hjv2ts7cm") ∧
      ¬ WaysAgree nullCodecs (lit "null null") := by
  have hcid : DagCid nullCodecs (lit "null null") =
      .ok (lit "bafyreifqwkmiw256ojf2zws6tzjeonw6bpd5vza4i22ccpcq4hjv2ts7cm") := rfl
  refine ⟨⟨_, rfl⟩, hcid, ?_⟩
  intro h
  have hpanic : DagCidBytes nullCodecs (lit "null null") .json =
      .error (.value (lit "unexpected content after end of json object")) := rfl
  rw [(h.bytes _).mp hcid] at hpanic
  cases hpanic

end Cids

end Kipfs
