import Kipfs.Kotlin.Handles

/-!
# Reference counts over whole runs

A reference that a Kotlin object owns has count two in the Go table, one for the object and one
that no one gives back; after the object is closed it has count one for ever. `Counted` is the
invariant that says so, `counted_step` that every call keeps it, and `noLeak_iff` draws the
conclusion: a run leaks nothing exactly when it creates nothing.
-/

namespace Kipfs

open Foundation

/-- How many Kotlin objects have a reference in their field `ref`. -/
def owners (p : Process) (r : Int) : Nat := p.objects.countP fun o => o.ref = r

/-- No Go object is leaked: a reference has count one when an object owns it, and is absent
otherwise. -/
def NoLeak (p : Process) : Prop :=
  ∀ r, r ≠ 0 → p.refs.count r = if ∃ o ∈ p.objects, o.ref = r then 1 else 0

/-- Nothing is in the table. -/
def Clean (p : Process) : Prop := ∀ r, r ≠ 0 → p.refs.count r = 0

/-- A reference was never issued and has no owner, or it has one count more than it has owners, of
which there is at most one. -/
def Counted (p : Process) : Prop :=
  ∀ r, r ≠ 0 → (p.refs.count r = 0 ∧ owners p r = 0) ∨
    (p.refs.count r = 1 + owners p r ∧ owners p r ≤ 1)

/-- The calls that create a Go object: a request always does, and a connect on a shell that has no
reference. -/
def CreatesObject (p : Process) : Call → Prop
  | .connect i => p.refOf i = 0
  | .request _ _ _ => True
  | _ => False

section Owners

variable {p q : Process} {i : Nat} {r : Int}

/-- Counting after one element has been modified. -/
theorem countP_modify {α : Type} (P : α → Bool) (f : α → α) {l : List α} {i : Nat} {x : α}
    (h : l[i]? = some x) :
    (l.modify i f).countP P + (if P x then 1 else 0) = l.countP P + if P (f x) then 1 else 0 := by
  induction l generalizing i with
  | nil => cases h
  | cons y l ih =>
      cases i with
      | zero =>
          cases h
          simp only [List.modify_zero_cons, List.countP_cons]
          omega
      | succ i =>
          have := ih h
          simp only [List.modify_succ_cons, List.countP_cons]
          omega

/-- Writing the field of an object takes its old reference away from it and gives it the new one. -/
theorem owners_withRef (h : p.objects[i]? ≠ none) (ref r : Int) :
    owners (p.withRef i ref) r + (if p.refOf i = r then 1 else 0) =
      owners p r + if ref = r then 1 else 0 := by
  obtain ⟨o, ho⟩ := Option.ne_none_iff_exists'.mp h
  have hcount := countP_modify (fun o => decide (o.ref = r)) (fun o => { o with ref := ref }) ho
  rw [refOf_eq ho]
  simpa [owners, Process.withRef] using hcount

theorem owners_withObject (o : KNativeObject) (r : Int) :
    owners (p.withObject o) r = owners p r + if o.ref = r then 1 else 0 := by
  simp [owners, Process.withObject, List.countP_append, List.countP_cons]

/-- A reference has an owner exactly when it is counted as one. -/
theorem exists_owner_iff : (∃ o ∈ p.objects, o.ref = r) ↔ 0 < owners p r := by
  simp [owners, List.countP_pos_iff]

/-- Under the invariant, what is leaked is what is in the table. -/
theorem Counted.noLeak_iff_clean (h : Counted p) : NoLeak p ↔ Clean p := by
  unfold NoLeak Clean
  refine forall_congr' fun r => forall_congr' fun hr => ?_
  rw [if_congr exists_owner_iff rfl rfl]
  rcases h r hr with ⟨hcount, howners⟩ | ⟨hcount, howners⟩
  · rw [hcount, howners]
    simp
  · rw [hcount]
    split <;> omega

/-- The invariant looks at the handles only. -/
theorem Counted.congr (h : Counted p) (hhandles : q.handles = p.handles) : Counted q := by
  obtain ⟨hrefs, hobjects⟩ := Prod.mk.inj hhandles
  unfold Counted owners
  rw [hrefs, hobjects]
  exact h

/-- A created reference that has been given to one object. -/
theorem Counted.created {s : Process} (h : Counted p) (hcreated : Created p q r)
    (hrefs : s.refs = q.refs)
    (howners : ∀ r', r' ≠ 0 → owners s r' = owners p r' + if r = r' then 1 else 0) : Counted s := by
  obtain ⟨_, _, habsent, hcount⟩ := hcreated
  intro r' hr'
  have hbefore := h r' hr'
  rw [hrefs, hcount, howners r' hr']
  by_cases heq : r = r'
  · subst heq
    rw [if_pos rfl, if_pos rfl]
    omega
  · rw [if_neg (Ne.symm heq), if_neg heq]
    omega

/-- A created reference given to an object that had none. -/
theorem Counted.created_withRef (h : Counted p) (hcreated : Created p q r)
    (hobject : p.objects[i]? ≠ none) (hzero : p.refOf i = 0) : Counted (q.withRef i r) := by
  refine h.created hcreated rfl fun r' hr' => ?_
  have hobjects := hcreated.1
  have hfield : q.refOf i = 0 := by rw [Process.refOf, hobjects]; exact hzero
  have howners := owners_withRef (p := q) (by rwa [hobjects]) r r'
  rw [hfield, if_neg hr'.symm] at howners
  rw [← Nat.add_zero (owners (q.withRef i r) r'), howners, owners, hobjects, owners]

/-- A created reference given to a new object. -/
theorem Counted.created_withObject (h : Counted p) (hcreated : Created p q r) (cls : ObjectClass) :
    Counted (q.withObject ⟨cls, r⟩) := by
  refine h.created hcreated rfl fun r' _ => ?_
  rw [owners_withObject, owners, hcreated.1, owners]

/-- What has been created is in the table. -/
theorem not_clean_of_created {s : Process} (hcreated : Created p q r) (hrefs : s.refs = q.refs) :
    ¬ Clean s := by
  obtain ⟨_, hr, _, hcount⟩ := hcreated
  intro hclean
  have hzero := hclean r hr
  rw [hrefs, hcount, if_pos rfl] at hzero
  cases hzero

/-- A reference taken from its object and deleted. -/
theorem Counted.disposed (h : Counted p) (hne : p.refOf i ≠ 0) (hobject : p.objects[i]? ≠ none)
    (hobjects : q.objects = p.objects) (hdelete : p.refs.delete (p.refOf i) = some q.refs) :
    Counted (q.withRef i 0) ∧ ¬ Clean p ∧ ¬ Clean (q.withRef i 0) := by
  obtain ⟨_, _, hcount⟩ := RefTable.delete_spec hdelete
  have hfield : q.refOf i = p.refOf i := by rw [Process.refOf, hobjects, Process.refOf]
  have howners : ∀ r, r ≠ 0 →
      owners (q.withRef i 0) r + (if p.refOf i = r then 1 else 0) = owners p r := by
    intro r hr
    have howners := owners_withRef (p := q) (by rwa [hobjects]) 0 r
    rwa [hfield, if_neg hr.symm, Nat.add_zero, owners.eq_def q, hobjects] at howners
  have hrefs : (q.withRef i 0).refs = q.refs := rfl
  have hcounted : Counted (q.withRef i 0) := by
    intro r hr
    have hbefore := h r hr
    have hafter := howners r hr
    have hcount' := hcount r
    rw [hrefs]
    by_cases heq : p.refOf i = r
    · subst heq
      simp only [if_true] at hafter hcount'
      omega
    · simp only [if_neg heq, if_neg (Ne.symm heq)] at hafter hcount'
      omega
  -- the owner that is gone had made the count two
  have hbefore := h _ hne
  have hafter := howners _ hne
  have hcount' := hcount (p.refOf i)
  simp only [if_true] at hafter hcount'
  refine ⟨hcounted, fun hclean => ?_, fun hclean => ?_⟩
  · have hzero := hclean _ hne
    omega
  · have hzero := hclean _ hne
    rw [hrefs] at hzero
    omega

end Owners

section Steps

variable {kipfs : KIPFSNative} {p q : Process} {i : Nat}

/-- A program that keeps the handles keeps the invariant, and what is in the table. -/
theorem counted_of_keeps {α : Type} {m : Prog α} (hkeeps : Keeps Process.handles m)
    (hcounted : Counted p) (h : survivor (m.run p) = some q) : Counted q ∧ (Clean q ↔ Clean p) := by
  have hhandles : q.handles = p.handles := by
    rcases survivor_eq_some.mp h with ⟨a, hrun⟩ | ⟨message, hrun⟩
    · exact hkeeps.of_run hrun
    · exact hkeeps.of_run hrun
  refine ⟨hcounted.congr hhandles, ?_⟩
  unfold Clean
  rw [(Prod.mk.inj hhandles).1]

/-- A call on a request that keeps the handles keeps the invariant. -/
theorem counted_onRequest {m m' : Prog Unit} (hkeeps : Keeps Process.handles m)
    (hcounted : Counted p) (hprogram : Call.program.onRequest p i m = some m')
    (h : survivor (m'.run p) = some q) : Counted q ∧ (Clean q ↔ Clean p ∧ ¬ False) := by
  rw [not_false_eq_true, and_true]
  unfold Call.program.onRequest at hprogram
  split at hprogram
  · cases hprogram
    exact counted_of_keeps hkeeps hcounted h
  · cases hprogram

/-- Connecting keeps the invariant, and creates something exactly when there is no reference. -/
theorem counted_connect (hcontract : HandleContract kipfs) (hcounted : Counted p)
    (hobject : p.objects[i]? ≠ none) {ipfsAddress : KString}
    (h : survivor ((KNativeShell.connect kipfs i ipfsAddress).run p) = some q) :
    Counted q ∧ (Clean q ↔ Clean p ∧ ¬ p.refOf i = 0) := by
  rcases (survivor_connect hcontract h).2 with
    ⟨hne, rfl⟩ | ⟨hzero, middle, refnum, _, hcreated, rfl⟩
  · exact ⟨hcounted, by simp [hne]⟩
  · refine ⟨hcounted.created_withRef hcreated hobject hzero, ?_⟩
    exact iff_of_false (not_clean_of_created hcreated rfl) fun hclean => hclean.2 hzero

/-- A request keeps the invariant, and creates a builder. -/
theorem counted_request (hcontract : HandleContract kipfs) (hcounted : Counted p)
    (hobject : p.objects[i]? ≠ none) {ipfsAddress command : KString} {arg : Option KString}
    (h : survivor ((KNativeShell.request kipfs i ipfsAddress command arg).run p) = some q) :
    Counted q ∧ (Clean q ↔ Clean p ∧ ¬ True) := by
  obtain ⟨connected, middle, refnum, hconnect, _, hcreated, rfl⟩ := survivor_request hcontract h
  obtain ⟨hcounted', _⟩ := counted_connect hcontract hcounted hobject hconnect
  refine ⟨hcounted'.created_withObject hcreated .request, ?_⟩
  exact iff_of_false (not_clean_of_created hcreated rfl) fun hclean => hclean.2 trivial

/-- Closing keeps the invariant, and the table is clean after it only if it was before. -/
theorem counted_close (hcontract : HandleContract kipfs) (hcounted : Counted p)
    (hobject : p.objects[i]? ≠ none)
    (h : survivor ((KNativeObject.close kipfs i).run p) = some q) :
    Counted q ∧ (Clean q ↔ Clean p) := by
  rcases survivor_close hcontract h with ⟨_, rfl⟩ | ⟨hne, middle, hobjects, hdelete, rfl⟩
  · exact ⟨hcounted, Iff.rfl⟩
  · obtain ⟨hcounted', hbefore, hafter⟩ := hcounted.disposed hne hobject hobjects hdelete
    exact ⟨hcounted', iff_of_false hafter hbefore⟩

/-- **Every call keeps the invariant, and leaves the table clean exactly when it was clean before
and the call creates nothing.** -/
theorem counted_step (hcontract : HandleContract kipfs) {call : Call} (hcounted : Counted p)
    (hmove : step kipfs p call = some q) :
    Counted q ∧ (Clean q ↔ Clean p ∧ ¬ CreatesObject p call) := by
  obtain ⟨m, hprogram, h⟩ := Option.bind_eq_some_iff.mp hmove
  clear hmove
  cases call with
  | createShell ipfsAddress =>
      cases hprogram
      cases h
      refine ⟨fun r hr => ?_, by simp [CreatesObject]; rfl⟩
      have howners := owners_withObject (p := p) ⟨.shell ipfsAddress, 0⟩ r
      rw [if_neg hr.symm] at howners
      exact howners ▸ hcounted r hr
  | connect i =>
      simp only [Call.program] at hprogram
      split at hprogram
      · rename_i hobject
        cases hprogram
        exact counted_connect hcontract hcounted (by rw [hobject]; exact nofun) h
      · cases hprogram
  | request i command arg =>
      simp only [Call.program] at hprogram
      split at hprogram
      · rename_i hobject
        cases hprogram
        exact counted_request hcontract hcounted (by rw [hobject]; exact nofun) h
      · cases hprogram
  | close i =>
      obtain ⟨o, hobject, rfl⟩ := Option.map_eq_some_iff.mp hprogram
      simpa [CreatesObject] using
        counted_close hcontract hcounted (by rw [hobject]; exact nofun) h
  | finalize i =>
      obtain ⟨o, hobject, rfl⟩ := Option.map_eq_some_iff.mp hprogram
      simpa [CreatesObject] using
        counted_close hcontract hcounted (by rw [hobject]; exact nofun) h
  | option i name value =>
      exact counted_onRequest
        (keeps_bind (keeps_getRef _) fun ref => hcontract.requestOption ref name value) hcounted
        hprogram h
  | send i =>
      exact counted_onRequest
        (keeps_discard (keeps_bind (keeps_getRef _) fun ref => hcontract.sendRequest ref)) hcounted
        hprogram h
  | postString i data fileName =>
      exact counted_onRequest
        (keeps_discard (keeps_bind (keeps_getRef _) fun ref => hcontract.postString ref data))
        hcounted hprogram h
  | postData i data =>
      exact counted_onRequest
        (keeps_discard (keeps_bind (keeps_getRef _) fun ref => hcontract.postData ref data))
        hcounted hprogram h

/-- Over a run from a state with the invariant, the table is clean exactly when it was clean at
first and no call has created anything. -/
theorem clean_run_iff (hcontract : HandleContract kipfs) {calls : List Call} (hcounted : Counted p)
    (hrun : run (step kipfs) p calls = some q) :
    Counted q ∧
      (Clean q ↔ Clean p ∧ Along (step kipfs) (fun p call => ¬ CreatesObject p call) p calls) := by
  induction calls generalizing p with
  | nil =>
      cases hrun
      exact ⟨hcounted, by simp [Along]⟩
  | cons call calls ih =>
      obtain ⟨middle, hmove, hrest⟩ := run_cons_eq_some.mp hrun
      obtain ⟨hcounted', hclean⟩ := counted_step hcontract hcounted hmove
      obtain ⟨hcounted'', hclean'⟩ := ih hcounted' hrest
      refine ⟨hcounted'', ?_⟩
      rw [hclean', hclean, and_assoc]
      simp only [Along, hmove, Option.some.injEq, forall_eq']

end Steps

/-- A process from which a run starts: nothing is in the table, and there are no objects. -/
structure Initial (p : Process) : Prop where
  refs : ∀ r, p.refs.lookup r = none
  objects : p.objects = []

/-- The invariant holds at first, and the table is clean. -/
theorem Initial.counted {p : Process} (h : Initial p) : Counted p ∧ Clean p := by
  have hcount : ∀ r, p.refs.count r = 0 := fun r => RefTable.count_eq_zero_iff.mpr (h.refs r)
  refine ⟨fun r _ => .inl ⟨hcount r, ?_⟩, fun r _ => hcount r⟩
  rw [owners, h.objects]
  rfl

/-- **On either binding, a run from an empty table leaks no Go object exactly when it creates none:
no request is made, and no shell without a reference is connected.** -/
theorem noLeak_iff (env : Env) {kipfs : KIPFSNative}
    (hkipfs : kipfs = native (libkipfs env) ∨ kipfs = jvm (libkipfs env)) {p q : Process}
    (hinitial : Initial p) {calls : List Call} (hrun : run (step kipfs) p calls = some q) :
    NoLeak q ↔ Along (step kipfs) (fun p call => ¬ CreatesObject p call) p calls := by
  have hcontract : HandleContract kipfs := by
    rcases hkipfs with rfl | rfl
    · exact native_contract env
    · exact jvm_contract env
  obtain ⟨hcounted, hclean⟩ := hinitial.counted
  obtain ⟨hcounted', hclean'⟩ := clean_run_iff hcontract hcounted hrun
  rw [hcounted'.noLeak_iff_clean, hclean']
  exact and_iff_right hclean

theorem initial_start : Initial Process.start := ⟨fun _ => rfl, rfl⟩

/-- A shell that is closed without having been connected leaks nothing. -/
theorem noLeak_unconnected :
    NoLeak { Process.start with objects := [⟨.shell [], 0⟩] } :=
  (noLeak_iff standalone (.inl rfl) initial_start
    (rfl : run (step (native (libkipfs standalone))) Process.start [.createShell [], .close 0] =
      some { Process.start with objects := [⟨.shell [], 0⟩] })).mpr
    ⟨not_false, fun _ h => by cases h; exact ⟨not_false, fun _ _ => trivial⟩⟩

/-- A connected shell has a reference with count two, and after it is closed the reference still has
count one. -/
theorem leak_connected :
    (∃ q, run (step (native (libkipfs standalone))) Process.start [.createShell [], .connect 0] =
        some q ∧ q.refOf 0 = -24 ∧ q.refs.count (-24) = 2 ∧ ¬ NoLeak q) ∧
      ∃ q, run (step (native (libkipfs standalone))) Process.start
          [.createShell [], .connect 0, .close 0] = some q ∧
        q.refOf 0 = 0 ∧ q.refs.count (-24) = 1 ∧ ¬ NoLeak q := by
  refine ⟨⟨_, rfl, rfl, rfl, fun hleak => ?_⟩, ⟨_, rfl, rfl, rfl, fun hleak => ?_⟩⟩
  · exact absurd (hleak (-24) (by decide)) (by decide)
  · exact absurd (hleak (-24) (by decide)) (by decide)

end Kipfs
