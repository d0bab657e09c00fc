import Kipfs.Go.Shell

/-!
# Streaming a response

`Response.Read` turns the end of its stream into the number -1, and a caller reads until it sees
that number or an error. The bytes that arrive in the answer that ends the stream go into the
buffer but not into the number. The main theorem, `streams_content_iff`, says that this loop hands
over what `ioutil.ReadAll` reads exactly when there are no such bytes.
-/

namespace Kipfs.Shell

open Foundation Ipfsapi

/-- Read into buffers of the given sizes and collect the first `n` bytes of each, until the number
is -1 or there is an error; none when the buffers are used up before. -/
def readLoop : List Nat → Bytes → EStateM GoPanic Ipfsapi.Response (Option (Bytes × Option GoError))
  | [], _ => pure none
  | size :: sizes, got => do
      let (data, n, err) ← Response.Read size
      if n = -1 ∨ err ≠ none then pure (some (got ++ data.take n.toNat, err))
      else readLoop sizes (got ++ data.take n.toNat)

/-- With enough buffers of the given sizes, reading the response in a loop gives the result. -/
def Streams (res : Ipfsapi.Response) (sizes : Nat → Nat) (result : Bytes × Option GoError) : Prop :=
  ∃ enough, ∀ count, enough ≤ count →
    ∃ res', (readLoop ((List.range count).map sizes) []).run res = .ok (some result) res'

/-- The bytes that the loop loses: those that arrive together with the end of the stream. -/
def dropped (r : Reader Bytes) (sizes : Nat → Nat) : Bytes :=
  match r.lastAnswer sizes with
  | (data, .eof) => data
  | (_, .other _) => []

/-- `ioutil.ReadAll` on a reader. -/
theorem run_ReadAll (r : Reader Bytes) (c : Conn) :
    (ReadAll (some r)).run c = .ok r.readAll c := rfl

section Read

variable {id : Nat} {failure : Option GoError} {r r' : Reader Bytes} {size : Nat} {data : Bytes}
  {sizes : List Nat} {got : Bytes}

/-- An answer without an error is passed on as it is. -/
theorem run_Read_data (h : r.read size = (data, none, r')) :
    (Response.Read size).run ⟨id, failure, some r⟩ =
      .ok (data, data.length, none) ⟨id, failure, some r'⟩ := by
  simp [Response.Read, h]

/-- An answer with the end of the stream is reported as -1. -/
theorem run_Read_eof (h : r.read size = (data, some .eof, r')) :
    (Response.Read size).run ⟨id, failure, some r⟩ =
      .ok (data, -1, none) ⟨id, failure, some r'⟩ := by
  simp [Response.Read, h]

/-- An answer with a failure is passed on as it is. -/
theorem run_Read_other {text : Bytes} (h : r.read size = (data, some (.other text), r')) :
    (Response.Read size).run ⟨id, failure, some r⟩ =
      .ok (data, data.length, some (.other text)) ⟨id, failure, some r'⟩ := by
  simp [Response.Read, h]

/-- The loop goes on after an answer without an error. -/
theorem readLoop_data (h : r.read size = (data, none, r')) :
    (readLoop (size :: sizes) got).run ⟨id, failure, some r⟩ =
      (readLoop sizes (got ++ data)).run ⟨id, failure, some r'⟩ := by
  have hlen : (data.length : Int) ≠ -1 := by omega
  rw [readLoop, EStateM.run_bind, run_Read_data h]
  simp [hlen]

/-- The loop ends at the end of the stream, without the data of the last answer. -/
theorem readLoop_eof (h : r.read size = (data, some .eof, r')) :
    (readLoop (size :: sizes) got).run ⟨id, failure, some r⟩ =
      .ok (some (got, none)) ⟨id, failure, some r'⟩ := by
  rw [readLoop, EStateM.run_bind, run_Read_eof h]
  simp

/-- The loop ends at a failure, with the data of the last answer. -/
theorem readLoop_other {text : Bytes} (h : r.read size = (data, some (.other text), r')) :
    (readLoop (size :: sizes) got).run ⟨id, failure, some r⟩ =
      .ok (some (got ++ data, some (.other text))) ⟨id, failure, some r'⟩ := by
  rw [readLoop, EStateM.run_bind, run_Read_other h]
  simp

end Read

/-- What holds of a loop over `sizes` from its second buffer on holds of one more buffer. -/
theorem map_range_of_pos {count enough : Nat} (h : enough + 1 ≤ count) (sizes : Nat → Nat) :
    ∃ rest, enough ≤ rest ∧ (List.range count).map sizes =
      sizes 0 :: (List.range rest).map fun i => sizes (i + 1) := by
  obtain ⟨rest, rfl⟩ : ∃ rest, count = rest + 1 := ⟨count - 1, by omega⟩
  refine ⟨rest, by omega, ?_⟩
  rw [List.range_succ_eq_map, List.map_cons, List.map_map]
  rfl

/-- The loop on a reader whose next answer is the last. -/
theorem readLoop_last (id : Nat) (failure : Option GoError) {r r' : Reader Bytes} {data : Bytes}
    {e : GoError} {sizes : Nat → Nat} (hread : r.read (sizes 0) = (data, some e, r'))
    (hlast : r.lastAnswer sizes = (data, e)) (got : Bytes) :
    ∃ handed, data = handed ++ dropped r sizes ∧ ∃ enough, ∀ count, enough ≤ count →
      ∃ res', (readLoop ((List.range count).map sizes) got).run ⟨id, failure, some r⟩ =
        .ok (some (got ++ handed, e.failure)) res' := by
  cases e with
  | eof =>
      refine ⟨[], by rw [dropped, hlast]; rfl, 1, ?_⟩
      intro count hcount
      obtain ⟨rest, _, hsizes⟩ := map_range_of_pos hcount sizes
      rw [hsizes, readLoop_eof hread, List.append_nil]
      exact ⟨_, rfl⟩
  | other text =>
      refine ⟨data, by rw [dropped, hlast, List.append_nil], 1, ?_⟩
      intro count hcount
      obtain ⟨rest, _, hsizes⟩ := map_range_of_pos hcount sizes
      rw [hsizes, readLoop_other hread]
      exact ⟨_, rfl⟩

/-- The loop hands over everything but the dropped bytes, and ends as the stream does. -/
theorem readLoop_of_delivers (id : Nat) (failure : Option GoError) {r : Reader Bytes}
    {content : Bytes} {e : GoError} (h : r.Delivers content e) {sizes : Nat → Nat}
    (hpos : ∀ i, 0 < sizes i) (got : Bytes) :
    ∃ handed, content = handed ++ dropped r sizes ∧ ∃ enough, ∀ count, enough ≤ count →
      ∃ res', (readLoop ((List.range count).map sizes) got).run ⟨id, failure, some r⟩ =
        .ok (some (got ++ handed, e.failure)) res' := by
  induction r generalizing content sizes got with
  | done e' =>
      obtain ⟨rfl, rfl⟩ := h
      have hread : (Reader.done e').read (sizes 0) = ([], some e', .done e') := rfl
      exact readLoop_last id failure hread rfl got
  | more data err next ih =>
      obtain ⟨_, hanswer⟩ := h (sizes 0) (hpos 0)
      cases herr : err (sizes 0) with
      | some e' =>
          rw [herr] at hanswer
          obtain ⟨rfl, rfl⟩ := hanswer
          have hread : Reader.read (.more data err next) (sizes 0) =
              (data (sizes 0), some e', next (sizes 0)) := by rw [Reader.read, herr]
          have hlast : Reader.lastAnswer (.more data err next) sizes = (data (sizes 0), e') := by
            rw [Reader.lastAnswer, herr]
          exact readLoop_last id failure hread hlast got
      | none =>
          -- the rest of the stream is read with the buffers from the second on
          rw [herr] at hanswer
          obtain ⟨rest, rfl, hrest⟩ := hanswer
          have hread : Reader.read (.more data err next) (sizes 0) =
              (data (sizes 0), none, next (sizes 0)) := by rw [Reader.read, herr]
          have hdropped : dropped (.more data err next) sizes =
              dropped (next (sizes 0)) fun i => sizes (i + 1) := by
            rw [dropped, dropped, Reader.lastAnswer, herr]
          obtain ⟨handed, rfl, enough, hloop⟩ :=
            ih (sizes 0) hrest (fun i => hpos (i + 1)) (got ++ data (sizes 0))
          refine ⟨data (sizes 0) ++ handed, by rw [hdropped, List.append_assoc], enough + 1, ?_⟩
          intro count hcount
          obtain ⟨rest, hle, hsizes⟩ := map_range_of_pos hcount sizes
          rw [hsizes, readLoop_data hread, ← List.append_assoc]
          exact hloop rest hle

/-- A response streams one result only. -/
theorem Streams.unique {res : Ipfsapi.Response} {sizes : Nat → Nat}
    {result result' : Bytes × Option GoError} (h : Streams res sizes result)
    (h' : Streams res sizes result') : result = result' := by
  obtain ⟨enough, hloop⟩ := h
  obtain ⟨enough', hloop'⟩ := h'
  obtain ⟨_, hrun⟩ := hloop (max enough enough') (le_max_left _ _)
  obtain ⟨_, hrun'⟩ := hloop' (max enough enough') (le_max_right _ _)
  rw [hrun] at hrun'
  cases hrun'
  rfl

/-- The bytes dropped are none exactly when the end of the stream arrives alone. -/
theorem dropped_eq_nil_iff (r : Reader Bytes) (sizes : Nat → Nat) :
    dropped r sizes = [] ↔ ((r.lastAnswer sizes).2 = .eof → (r.lastAnswer sizes).1 = []) := by
  rw [dropped]
  rcases r.lastAnswer sizes with ⟨data, e | text⟩ <;> simp

/-- **Reading in a loop hands over what `ioutil.ReadAll` reads, with the same final error, exactly
when the answer that carries `io.EOF` carries no data.** -/
theorem streams_content_iff {r : Reader Bytes} {content : Bytes} {e : GoError}
    (h : r.Delivers content e) {sizes : Nat → Nat} (hpos : ∀ i, 0 < sizes i)
    (id : Nat) (failure : Option GoError) (c : Conn) :
    (ReadAll (some r)).run c = .ok (content, e.failure) c ∧
      (Streams ⟨id, failure, some r⟩ sizes (content, e.failure) ↔
        ((r.lastAnswer sizes).2 = .eof → (r.lastAnswer sizes).1 = [])) := by
  refine ⟨by rw [run_ReadAll, Reader.readAll_of_delivers h], ?_⟩
  obtain ⟨handed, hcontent, hloop⟩ := readLoop_of_delivers id failure h hpos []
  have hstreams : Streams ⟨id, failure, some r⟩ sizes (handed, e.failure) := hloop
  rw [← dropped_eq_nil_iff]
  constructor
  · intro hall
    -- the loop has one result, so the bytes handed over are all of the content
    have hhanded : handed = content := congrArg Prod.fst (hstreams.unique hall)
    rwa [hhanded, List.self_eq_append_right] at hcontent
  · intro hnone
    rw [hnone, List.append_nil] at hcontent
    rwa [hcontent]

/-- A stream that hands over its bytes one by one and then ends is read whole. -/
theorem streams_content_bytes :
    Streams ⟨0, none, some (Reader.ofBytes .eof [104, 105])⟩ (fun _ => 4) ([104, 105], none) :=
  (streams_content_iff (Reader.ofBytes_delivers .eof [104, 105]) (fun _ => by decide) 0 none
    ⟨Ipfsapi.Request [] [], ⟨[], [], []⟩⟩).2.mpr fun _ => rfl

/-- A reader that hands over one byte together with the end of its stream. -/
def lastByteWithEof : Reader Bytes :=
  .more (fun _ => [104]) (fun _ => some .eof) fun _ => .done .eof

/-- The byte that arrives with the end of the stream is read by `ioutil.ReadAll`, and the loop loses
it. -/
theorem streams_without_last_byte :
    lastByteWithEof.Delivers [104] .eof ∧ lastByteWithEof.readAll = ([104], none) ∧
      Streams ⟨0, none, some lastByteWithEof⟩ (fun _ => 4) ([], none) ∧
      ¬ Streams ⟨0, none, some lastByteWithEof⟩ (fun _ => 4) ([104], none) := by
  have hdelivers : lastByteWithEof.Delivers [104] .eof := fun p hp => ⟨hp, rfl, rfl⟩
  have hstreams : Streams ⟨0, none, some lastByteWithEof⟩ (fun _ => 4) ([], none) := by
    refine ⟨1, fun count hcount => ?_⟩
    obtain ⟨rest, _, hsizes⟩ := map_range_of_pos hcount fun _ => 4
    have hread : lastByteWithEof.read 4 = ([104], some .eof, .done .eof) := rfl
    rw [hsizes, readLoop_eof hread]
    exact ⟨_, rfl⟩
  refine ⟨hdelivers, Reader.readAll_of_delivers hdelivers, hstreams, fun hall => ?_⟩
  cases hstreams.unique hall

end Kipfs.Shell
