import Mathlib.Data.List.Basic

/-!
# Byte readers

A reader answers a read of up to `p` bytes with some data, possibly an error, and the reader it
has become. Readers whose stream ends are the well-founded trees of such answers, so `Reader`
is an inductive type and a loop over reads is a structural recursion. The answer may depend on
`p`, and data and the error that ends the stream may arrive in one answer or in two.

`Delivers` says which bytes and which final error a reader stands for, however it is read.
`readAll_of_delivers` says that reading it to the end gives exactly these.
-/

namespace Foundation

/-- How a stream ends: at its end, or with a failure. -/
inductive ReadError (ε : Type) where
  | eof
  | other (e : ε)
  deriving DecidableEq, Repr

/-- The answers of a reader. `done e` has ended and answers every read with `e`; `more` answers a
read of up to `p` bytes with `data p`, the error `err p` if there is one, and then becomes
`next p`. -/
inductive Reader (ε : Type) where
  | done (e : ReadError ε)
  | more (data : Nat → List UInt8) (err : Nat → Option (ReadError ε)) (next : Nat → Reader ε)

variable {ε : Type}

/-- The failure of a stream that ended with `e`; the end of the stream is no failure. -/
def ReadError.failure : ReadError ε → Option (ReadError ε)
  | .eof => none
  | .other e => some (.other e)

namespace Reader

/-- One read of up to `p` bytes. -/
def read : Reader ε → Nat → List UInt8 × Option (ReadError ε) × Reader ε
  | .done e, _ => ([], some e, .done e)
  | .more data err next, p => (data p, err p, next p)

/-- However it is read into non-empty buffers, the reader hands over exactly `content`, never more
than the buffer holds, and then ends with `e`. -/
def Delivers : Reader ε → List UInt8 → ReadError ε → Prop
  | .done e', content, e => content = [] ∧ e' = e
  | .more data err next, content, e =>
      ∀ p, 0 < p → (data p).length ≤ p ∧
        match err p with
        | some e' => e' = e ∧ data p = content
        | none => ∃ rest, content = data p ++ rest ∧ (next p).Delivers rest e

/-- The answer that ends the stream when the reader is read into buffers of the given sizes: the
data that arrives with the final error, and that error. -/
def lastAnswer : Reader ε → (Nat → Nat) → List UInt8 × ReadError ε
  | .done e, _ => ([], e)
  | .more data err next, sizes =>
      match err (sizes 0) with
      | some e => (data (sizes 0), e)
      | none => (next (sizes 0)).lastAnswer fun i => sizes (i + 1)

/-- Read to the end into a growing buffer that holds `b` and has room for `cap` bytes; a full
buffer is grown by one byte and some slack. -/
def readAllFrom (slack : Nat → Nat) : Reader ε → List UInt8 → Nat →
    List UInt8 × Option (ReadError ε)
  | .done e, b, _ => (b, e.failure)
  | .more data err next, b, cap =>
      let cap' := if b.length = cap then cap + 1 + slack cap else cap
      let p := cap' - b.length
      match err p with
      | some e => (b ++ data p, e.failure)
      | none => readAllFrom slack (next p) (b ++ data p) cap'

/-- Reading to the end appends exactly what the reader delivers, however the buffer grows. -/
theorem readAllFrom_of_delivers (slack : Nat → Nat) {r : Reader ε} {content : List UInt8}
    {e : ReadError ε} (h : r.Delivers content e) {b : List UInt8} {cap : Nat}
    (hcap : b.length ≤ cap) : readAllFrom slack r b cap = (b ++ content, e.failure) := by
  induction r generalizing content b cap with
  | done e' =>
      obtain ⟨rfl, rfl⟩ := h
      simp [readAllFrom]
  | more data err next ih =>
      -- after growing, the buffer has room for at least one byte
      obtain ⟨cap', hcap', hlt⟩ : ∃ cap',
          (if b.length = cap then cap + 1 + slack cap else cap) = cap' ∧ b.length < cap' := by
        refine ⟨_, rfl, ?_⟩
        split <;> omega
      obtain ⟨hlen, hanswer⟩ := h (cap' - b.length) (by omega)
      simp only [readAllFrom, hcap']
      cases herr : err (cap' - b.length) with
      | some e' =>
          rw [herr] at hanswer
          obtain ⟨rfl, rfl⟩ := hanswer
          rfl
      | none =>
          rw [herr] at hanswer
          obtain ⟨rest, rfl, hrest⟩ := hanswer
          have hroom : (b ++ data (cap' - b.length)).length ≤ cap' := by
            rw [List.length_append]
            omega
          rw [ih (cap' - b.length) hrest hroom, List.append_assoc]

/-- Read to the end, starting with a buffer of 512 bytes that doubles when it is full. -/
def readAll (r : Reader ε) : List UInt8 × Option (ReadError ε) := readAllFrom id r [] 512

/-- Reading to the end gives exactly the bytes and the failure the reader stands for. -/
theorem readAll_of_delivers {r : Reader ε} {content : List UInt8} {e : ReadError ε}
    (h : r.Delivers content e) : r.readAll = (content, e.failure) :=
  readAllFrom_of_delivers id h (Nat.zero_le _)

/-- Hand over the bytes one by one, each with no error, then end with `e`. -/
def ofBytes (e : ReadError ε) : List UInt8 → Reader ε
  | [] => .done e
  | byte :: rest => .more (fun _ => [byte]) (fun _ => none) fun _ => ofBytes e rest

/-- Every byte sequence and every ending is delivered by some reader. -/
theorem ofBytes_delivers (e : ReadError ε) (content : List UInt8) :
    (ofBytes e content).Delivers content e := by
  induction content with
  | nil => exact ⟨rfl, rfl⟩
  | cons byte rest ih => exact fun p hp => ⟨hp, rest, rfl, ih⟩

end Reader

end Foundation
