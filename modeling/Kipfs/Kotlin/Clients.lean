import Kipfs.Kotlin.Handles

/-!
# Many clients of one shell

Any number of clients call `connect`, `request` and `close` on one shell, and nothing keeps their
calls apart. A `State` is the process, the point at which each client is in its call, and a log of
the references created, disposed and used; a step is one access to the field `ref`, or one call
into Go. `Safe` is what a shell owes its references.

The invariant `Inv` says that a client that creates or disposes the reference is the only one to do
so or to use it, and that every client is right about the field. This module says what a single step
makes of it (`point_step`), and what a step does while another client is at work (`run_waits`).
-/

namespace Kipfs.Clients

open Foundation

/-- What follows a `connect`: nothing, or the rest of `request`. -/
inductive After where
  | finish
  | request (command : KString) (arg : Option KString)
  deriving DecidableEq, Repr

/-- A point in a call on the shell. -/
inductive Point where
  | connecting (after : After)
  | creating (after : After)
  | assigning (ref : Int) (after : After)
  | requesting (command : KString) (arg : Option KString)
  | calling (ref : Int) (command : KString) (arg : Option KString)
  | logging
  | testing
  | rereading
  | disposing (ref : Int)
  | resetting
  deriving DecidableEq, Repr

/-- A method of the shell; `finalize` is `close`. -/
inductive Method where
  | connect
  | request (command : KString) (arg : Option KString)
  | close
  deriving DecidableEq, Repr

/-- A call into Go: a reference that it created, disposed or used. -/
inductive Event where
  | created (ref : Int)
  | disposed (ref : Int)
  | used (ref : Int)
  deriving DecidableEq, Repr

/-- Where a method starts. -/
def Method.point : Method → Point
  | connect => .connecting .finish
  | request command arg => .connecting (.request command arg)
  | close => .logging

/-- Where a client goes on after `connect`. -/
def After.point : After → Option Point
  | finish => none
  | request command arg => some (.requesting command arg)

/-- The call into Go that is made at a point, with the reference passed. -/
def Point.event : Point → Option Event
  | disposing ref => some (.disposed ref)
  | calling ref _ _ => some (.used ref)
  | _ => none

/-- One step of a call on the shell with the given number and address: the next point, and a
reference that Go has created for it. -/
def Point.step (kipfs : KIPFSNative) (shell : Nat) (address : KString) :
    Point → Prog (Option Point × Option Int)
  | connecting after => do
      if (← KNativeObject.getRef shell) ≠ 0 then pure (after.point, none)
      else pure (some (creating after), none)
  | creating after => do
      let ref ← kipfs.createNativeShell address
      pure (some (assigning ref after), some ref)
  | assigning ref after => do
      KNativeObject.setRef shell ref
      pure (after.point, none)
  | requesting command arg => do
      let ref ← KNativeObject.getRef shell
      pure (some (calling ref command arg), none)
  | calling ref command arg => do
      KNativeObject.new .request (← kipfs.createRequest ref command arg)
      pure (none, none)
  | logging => do
      let _ ← KNativeObject.getRef shell
      pure (some testing, none)
  | testing => do
      if (← KNativeObject.getRef shell) ≠ 0 then pure (some rereading, none)
      else pure (none, none)
  | rereading => do
      let ref ← KNativeObject.getRef shell
      pure (some (disposing ref), none)
  | disposing ref => do
      kipfs.disposeGoObject ref
      pure (some resetting, none)
  | resetting => do
      KNativeObject.setRef shell 0
      pure (none, none)

/-- The process, the clients, the calls into Go, the last one first, and whether the process has
ended. -/
structure State where
  process : Process
  points : Nat → Option Point
  log : List Event
  ended : Bool

/-- A client starts a call, or makes a step in the one it is in. -/
inductive Move where
  | call (client : Nat) (method : Method)
  | advance (client : Nat)
  deriving DecidableEq, Repr

/-- Make a move. A call that throws is over; a panic ends the process. -/
def step (kipfs : KIPFSNative) (shell : Nat) (address : KString) (s : State) : Move → Option State
  | .call client method =>
      if s.ended = false ∧ s.points client = none then
        some { s with points := Function.update s.points client (some method.point) }
      else none
  | .advance client =>
      match s.points client with
      | none => none
      | some point =>
          if s.ended then none
          else
            let log := point.event.toList ++ s.log
            match (point.step kipfs shell address).run s.process with
            | .ok (next, made) process =>
                some { s with
                  process
                  points := Function.update s.points client next
                  log := (made.map .created).toList ++ log }
            | .error (.thrown _) process =>
                some { s with process, points := Function.update s.points client none, log }
            | .error _ process => some { s with process, log, ended := true }

/-- The client has found that it must create the reference, and has yet to write the field. -/
def Point.creates : Point → Bool
  | creating _ => true
  | assigning _ _ => true
  | _ => false

/-- The client has found that it must dispose the reference, and has yet to write the field. -/
def Point.disposes : Point → Bool
  | rereading => true
  | disposing _ => true
  | resetting => true
  | _ => false

/-- The client is in a request, between its `connect` and the end of its call into Go. -/
def Point.using : Point → Bool
  | requesting _ _ => true
  | calling _ _ _ => true
  | _ => false

/-- A test of the field at the first point comes at the wrong time when another client is at the
second: `connect` tests while the other is creating the reference, `request` also while the other is
disposing it, and `close` while the other is disposing or using it. -/
def Point.clashes : Point → Point → Bool
  | connecting .finish, other => other.creates
  | connecting (.request _ _), other => other.creates || other.disposes
  | testing, other => other.disposes || other.using
  | _, _ => false

/-- The client does not test the field at the wrong time. -/
def Undisturbed (s : State) : Move → Prop
  | .call _ _ => True
  | .advance client => ∀ other, other ≠ client → ∀ point, s.points client = some point →
      ∀ point', s.points other = some point' → point.clashes point' = false

/-- The reference has been created by the shell, and not yet disposed. -/
def Live (log : List Event) (ref : Int) : Prop := .created ref ∈ log ∧ .disposed ref ∉ log

/-- The live references are the one in the field, if there is one. -/
def Settled (log : List Event) (ref : Int) : Prop := ∀ r, Live log r ↔ r = ref ∧ ref ≠ 0

/-- What a shell owes its references: each is disposed at most once, between calls the live ones are
the one in the field, and only live ones are used. -/
structure Safe (shell : Nat) (s : State) : Prop where
  once : ∀ ref, s.log.count (.disposed ref) ≤ 1
  settled : (∀ client, s.points client = none) → Settled s.log (s.process.refOf shell)
  used : ∀ later ref earlier, s.log = later ++ .used ref :: earlier → Live earlier ref

/-! ## The invariant -/

/-- The client is creating the reference or disposing it. -/
def Point.mutating (point : Point) : Bool := point.creates || point.disposes

/-- A client is creating or disposing the reference. -/
def Mutating (s : State) (client : Nat) : Prop :=
  ∃ point, s.points client = some point ∧ point.mutating

/-- A client is using the reference. -/
def Using (s : State) (client : Nat) : Prop :=
  ∃ point, s.points client = some point ∧ point.using

/-- The client has not found out anything about the field. -/
def Point.Fresh (point : Point) : Prop := point.mutating = false ∧ point.using = false

/-- The field has yet to follow what has been created or disposed. -/
def Point.unsettled : Point → Bool
  | assigning _ _ => true
  | resetting => true
  | _ => false

/-- What a client has found out so far is true. -/
def Point.Ok (log : List Event) (field : Int) : Point → Prop
  | creating _ => field = 0
  | assigning ref _ => field = 0 ∧ ref ≠ 0 ∧ ∀ r, Live log r ↔ r = ref
  | requesting _ _ => field ≠ 0
  | calling ref _ _ => ref = field ∧ field ≠ 0
  | rereading => field ≠ 0
  | disposing ref => ref = field ∧ field ≠ 0
  | resetting => field ≠ 0 ∧ ∀ r, ¬ Live log r
  | _ => True

/-- A reference that has been created is retained once for good, and once more until it is
disposed. -/
structure Tallied (p : Process) (log : List Event) : Prop where
  count : ∀ r, .created r ∈ log → r ≠ 0 ∧ p.refs.count r = if .disposed r ∈ log then 1 else 2
  created : ∀ r, .disposed r ∈ log → .created r ∈ log

/-- The parts of safety that the log tells. -/
structure LogSafe (log : List Event) : Prop where
  once : ∀ ref, log.count (.disposed ref) ≤ 1
  used : ∀ later ref earlier, log = later ++ .used ref :: earlier → Live earlier ref

/-- While the process runs: the shell is there, the table bears the log out, a client that is
creating or disposing is the only one that does or uses the reference, and every client is right
about the field. -/
structure Running (shell : Nat) (s : State) : Prop where
  object : s.process.objects[shell]? ≠ none
  tallied : Tallied s.process s.log
  apart : ∀ client, Mutating s client → ∀ other, other ≠ client →
    ¬ Mutating s other ∧ ¬ Using s other
  ok : ∀ client point, s.points client = some point → point.Ok s.log (s.process.refOf shell)
  settled : (∀ client point, s.points client = some point → point.unsettled = false) →
    Settled s.log (s.process.refOf shell)

/-- The invariant. A process that has ended did so in a call. -/
structure Inv (shell : Nat) (s : State) : Prop where
  log : LogSafe s.log
  running : s.ended = false → Running shell s
  ended : s.ended = true → ∃ client, s.points client ≠ none

/-- The log after a step. -/
def logAfter (log : List Event) (point : Point) (made : Option Int) : List Event :=
  (made.map .created).toList ++ (point.event.toList ++ log)

/-- What a step that returned leaves behind. -/
structure Stepped (shell : Nat) (p : Process) (log : List Event) (point : Point)
    (next : Option Point) (made : Option Int) (q : Process) : Prop where
  object : q.objects[shell]? ≠ none
  tallied : Tallied q (logAfter log point made)
  ok : ∀ point', next = some point' → point'.Ok (logAfter log point made) (q.refOf shell)
  settled : (∀ point', next = some point' → point'.unsettled = false) →
    Settled (logAfter log point made) (q.refOf shell)
  kept : point.mutating = false →
    (∀ r, Live (logAfter log point made) r ↔ Live log r) ∧ q.refOf shell = p.refOf shell

section Steps

variable {kipfs : KIPFSNative} {shell : Nat} {address : KString} {p q : Process} {log : List Event}
  {point : Point} {ref : Int}

/-- The log stays safe when a call into Go is made at a point that is right about the field. -/
theorem logSafe_event (h : LogSafe log) (hok : point.Ok log ref)
    (hsettled : point.unsettled = false → Settled log ref) :
    LogSafe (point.event.toList ++ log) := by
  cases point with
  | disposing r =>
      obtain ⟨rfl, hne⟩ := hok
      have hlive := (hsettled rfl r).mpr ⟨rfl, hne⟩
      refine ⟨fun r' => ?_, fun later r' earlier hlog => ?_⟩
      · -- a live reference has not been disposed before
        show ((Event.disposed r) :: log).count (.disposed r') ≤ 1
        rw [List.count_cons]
        by_cases heq : r = r'
        · subst heq
          rw [List.count_eq_zero.mpr hlive.2]
          simp
        · have := h.once r'
          simp [heq, this]
      · cases later with
        | nil => cases hlog
        | cons e later => exact h.used later r' earlier (List.cons.inj hlog).2
  | calling r command arg =>
      obtain ⟨rfl, hne⟩ := hok
      have hlive := (hsettled rfl r).mpr ⟨rfl, hne⟩
      refine ⟨fun r' => ?_, fun later r' earlier hlog => ?_⟩
      · show ((Event.used r) :: log).count (.disposed r') ≤ 1
        rw [List.count_cons_of_ne (by exact nofun)]
        exact h.once r'
      · cases later with
        | nil =>
            obtain ⟨hhead, rfl⟩ := List.cons.inj hlog
            cases hhead
            exact hlive
        | cons e later => exact h.used later r' earlier (List.cons.inj hlog).2
  | _ => exact h

/-- The log stays safe when a reference has been created. -/
theorem logSafe_created (h : LogSafe log) (r : Int) : LogSafe (.created r :: log) := by
  refine ⟨fun r' => ?_, fun later r' earlier hlog => ?_⟩
  · rw [List.count_cons_of_ne (by exact nofun)]
    exact h.once r'
  · cases later with
    | nil => cases hlog
    | cons e later => exact h.used later r' earlier (List.cons.inj hlog).2

@[simp] theorem live_used (r r' : Int) : Live (.used r :: log) r' ↔ Live log r' := by simp [Live]

theorem live_disposed (r r' : Int) : Live (.disposed r :: log) r' ↔ Live log r' ∧ r' ≠ r := by
  simp only [Live, List.mem_cons, reduceCtorEq, false_or, Event.disposed.injEq, not_or]
  exact ⟨fun ⟨hcreated, hne, hnot⟩ => ⟨⟨hcreated, hnot⟩, hne⟩,
    fun ⟨⟨hcreated, hnot⟩, hne⟩ => ⟨hcreated, hne, hnot⟩⟩

theorem live_created {r : Int} (hnot : .disposed r ∉ log) (r' : Int) :
    Live (.created r :: log) r' ↔ r' = r ∨ Live log r' := by
  simp only [Live, List.mem_cons, reduceCtorEq, false_or, Event.created.injEq]
  constructor
  · rintro ⟨rfl | hcreated, hnot'⟩
    · exact .inl rfl
    · exact .inr ⟨hcreated, hnot'⟩
  · rintro (rfl | ⟨hcreated, hnot'⟩)
    · exact ⟨.inl rfl, hnot⟩
    · exact ⟨.inr hcreated, hnot'⟩

theorem Tallied.congr (h : Tallied p log) (hrefs : q.refs = p.refs) : Tallied q log := by
  refine ⟨fun r hr => ?_, h.created⟩
  rw [hrefs]
  exact h.count r hr

/-- What is in the table of a shell is not created again. -/
theorem Tallied.fresh (h : Tallied p log) {r : Int} (hcreated : Created p q r) :
    .created r ∉ log ∧ .disposed r ∉ log := by
  obtain ⟨_, _, habsent, _⟩ := hcreated
  have hnot : .created r ∉ log := fun hr => by
    have hcount := (h.count r hr).2
    rw [habsent] at hcount
    split at hcount <;> cases hcount
  exact ⟨hnot, fun hr => hnot (h.created r hr)⟩

/-- The table bears the log out after a reference has been created that the log does not mention. -/
theorem Tallied.request (h : Tallied p log) {r : Int} (hcreated : Created p q r) :
    Tallied q log := by
  obtain ⟨hnot, _⟩ := h.fresh hcreated
  obtain ⟨_, _, _, hcount⟩ := hcreated
  refine ⟨fun r' hr' => ?_, h.created⟩
  have hne : r' ≠ r := fun heq => hnot (heq ▸ hr')
  rw [hcount, if_neg hne]
  exact h.count r' hr'

/-- The table bears the log out after a reference has been used. -/
theorem Tallied.used (h : Tallied p log) (r : Int) : Tallied p (.used r :: log) :=
  ⟨fun r' hr' => by simpa using h.count r' (by simpa using hr'),
    fun r' hr' => by simpa using h.created r' (by simpa using hr')⟩

/-- The table bears the log out after a shell has been created. -/
theorem Tallied.create (h : Tallied p log) {r : Int} (hcreated : Created p q r) :
    Tallied q (.created r :: log) := by
  obtain ⟨hnot, hnot'⟩ := h.fresh hcreated
  have hrest := h.request hcreated
  obtain ⟨_, hne, _, hcount⟩ := hcreated
  refine ⟨fun r' hr' => ?_, fun r' hr' => ?_⟩
  · rcases List.mem_cons.mp hr' with heq | hr'
    · obtain rfl := Event.created.inj heq
      simp [hne, hcount, hnot']
    · simpa using hrest.count r' hr'
  · simp only [List.mem_cons, reduceCtorEq, false_or] at hr'
    exact List.mem_cons_of_mem _ (h.created r' hr')

/-- The table bears the log out after a live reference has been disposed. -/
theorem Tallied.disposed (h : Tallied p log) {r : Int} (hlive : Live log r)
    (hdelete : p.refs.delete r = some q.refs) : Tallied q (.disposed r :: log) := by
  obtain ⟨_, _, hcount⟩ := RefTable.delete_spec hdelete
  refine ⟨fun r' hr' => ?_, fun r' hr' => ?_⟩
  · simp only [List.mem_cons, reduceCtorEq, false_or] at hr'
    obtain ⟨hne, hbefore⟩ := h.count r' hr'
    refine ⟨hne, ?_⟩
    have hafter := hcount r'
    by_cases heq : r' = r
    · subst heq
      rw [if_neg hlive.2] at hbefore
      simp only [List.mem_cons, true_or, if_true] at hafter ⊢
      omega
    · rw [if_neg heq] at hafter
      simp only [List.mem_cons, Event.disposed.injEq, heq, false_or]
      omega
  · rcases List.mem_cons.mp hr' with heq | hr'
    · obtain rfl := Event.disposed.inj heq
      exact List.mem_cons_of_mem _ hlive.1
    · exact List.mem_cons_of_mem _ (h.created r' hr')

/-- A step that leaves the process and the log alone. -/
theorem Stepped.silent {next : Option Point} (hobject : p.objects[shell]? ≠ none)
    (htallied : Tallied p log) (hsettled : Settled log (p.refOf shell))
    (hevent : point.event = none)
    (hok : ∀ point', next = some point' → point'.Ok log (p.refOf shell)) :
    Stepped shell p log point next none p := by
  have hlog : logAfter log point none = log := by
    rw [logAfter, hevent]
    rfl
  refine ⟨hobject, ?_, ?_, fun _ => ?_, fun _ => ⟨fun r => ?_, rfl⟩⟩
  · rw [hlog]
    exact htallied
  · rw [hlog]
    exact hok
  · rw [hlog]
    exact hsettled
  · rw [hlog]

/-- The field of an object after it has been written. -/
theorem refOf_withRef (hobject : p.objects[shell]? ≠ none) (r : Int) :
    (p.withRef shell r).objects[shell]? ≠ none ∧ (p.withRef shell r).refOf shell = r := by
  obtain ⟨o, ho⟩ := Option.ne_none_iff_exists'.mp hobject
  simp [Process.withRef, Process.refOf, ho]

/-- An object is not changed by adding another. -/
theorem object_withObject (hobject : p.objects[shell]? ≠ none) (o : KNativeObject) :
    (p.withObject o).objects[shell]? ≠ none ∧ (p.withObject o).refOf shell = p.refOf shell := by
  obtain ⟨o', ho⟩ := Option.ne_none_iff_exists'.mp hobject
  have hlt := (List.getElem?_eq_some_iff.mp ho).1
  simp [Process.withObject, Process.refOf, List.getElem?_append_left hlt, ho]

/-- The step at a point has returned, and leaves everything as it should be. -/
def Returns (kipfs : KIPFSNative) (shell : Nat) (address : KString) (p : Process) (log : List Event)
    (point : Point) (q : Process) : Prop :=
  ∃ next made, (point.step kipfs shell address).run p = .ok (next, made) q ∧
    Stepped shell p log point next made q

theorem returns_connecting (hobject : p.objects[shell]? ≠ none) (htallied : Tallied p log)
    (hsettled : Settled log (p.refOf shell)) {after : After}
    (h : survivor (((Point.connecting after).step kipfs shell address).run p) = some q) :
    Returns kipfs shell address p log (.connecting after) q := by
  rw [Point.step, EStateM.run_bind, run_getRef] at h
  dsimp only at h
  rw [Returns, Point.step, EStateM.run_bind, run_getRef]
  dsimp only
  by_cases hzero : p.refOf shell = 0
  · rw [if_neg (not_not.mpr hzero)] at h ⊢
    cases h
    refine ⟨_, _, rfl, .silent hobject htallied hsettled rfl ?_⟩
    intro point hpoint
    cases hpoint
    exact hzero
  · rw [if_pos hzero] at h ⊢
    cases h
    refine ⟨_, _, rfl, .silent hobject htallied hsettled rfl ?_⟩
    intro point hpoint
    cases after with
    | finish => cases hpoint
    | request command arg =>
        cases hpoint
        exact hzero

/-- A shell is created only when the field is empty, so its reference is the only live one. -/
theorem returns_creating (hcontract : HandleContract kipfs) (htallied : Tallied p log)
    (hobject : p.objects[shell]? ≠ none) (hempty : p.refOf shell = 0)
    (hsettled : Settled log (p.refOf shell)) {after : After}
    (h : survivor (((Point.creating after).step kipfs shell address).run p) = some q) :
    Returns kipfs shell address p log (.creating after) q := by
  obtain ⟨r, q', hrun, hcreated, hpure⟩ := survivor_bind (hcontract.createNativeShell address p) h
  cases hpure
  have hnone : ∀ r', ¬ Live log r' := by
    intro r' hlive
    exact ((hsettled r').mp hlive).2 hempty
  have honly : ∀ r', Live (.created r :: log) r' ↔ r' = r := by
    intro r'
    rw [live_created (htallied.fresh hcreated).2, or_iff_left (hnone r')]
  refine ⟨some (.assigning r after), some r, ?_, ?_, htallied.create hcreated, ?_, ?_, ?_⟩
  · rw [Point.step, EStateM.run_bind, hrun]
    rfl
  · rwa [hcreated.1]
  · intro point hpoint
    cases hpoint
    exact ⟨by rw [Process.refOf, hcreated.1]; exact hempty, hcreated.2.1, honly⟩
  · intro hnext
    cases hnext _ rfl
  · intro hmutating
    cases hmutating

theorem returns_assigning (hobject : p.objects[shell]? ≠ none) (htallied : Tallied p log) {r : Int}
    (hne : r ≠ 0) (honly : ∀ r', Live log r' ↔ r' = r) {after : After}
    (h : survivor (((Point.assigning r after).step kipfs shell address).run p) = some q) :
    Returns kipfs shell address p log (.assigning r after) q := by
  cases h
  obtain ⟨hobject', hfield⟩ := refOf_withRef hobject r
  refine ⟨_, _, rfl, hobject', htallied.congr rfl, ?_, ?_, ?_⟩
  · intro point hpoint
    cases after with
    | finish => cases hpoint
    | request command arg =>
        cases hpoint
        rw [hfield]
        exact hne
  · intro _ r'
    rw [hfield]
    exact (honly r').trans (and_iff_left hne).symm
  · intro hmutating
    cases hmutating

/-- Creating a request uses the reference, and changes neither the field nor what is live. -/
theorem returns_calling (hcontract : HandleContract kipfs) (hobject : p.objects[shell]? ≠ none)
    (htallied : Tallied p log) (hsettled : Settled log (p.refOf shell)) {r : Int}
    {command : KString} {arg : Option KString}
    (h : survivor (((Point.calling r command arg).step kipfs shell address).run p) = some q) :
    Returns kipfs shell address p log (.calling r command arg) q := by
  obtain ⟨made, q', hrun, hcreated, hnew⟩ :=
    survivor_bind (hcontract.createRequest r command arg p) h
  cases hnew
  have hobject' : q'.objects[shell]? ≠ none := by rwa [hcreated.1]
  have hfield : (q'.withObject ⟨.request, made⟩).refOf shell = p.refOf shell := by
    rw [(object_withObject hobject' _).2, Process.refOf, hcreated.1, Process.refOf]
  refine ⟨none, none, ?_, (object_withObject hobject' _).1,
    ((htallied.request hcreated).used r).congr rfl, ?_, ?_, fun _ => ⟨live_used r, hfield⟩⟩
  · rw [Point.step, EStateM.run_bind, hrun]
    rfl
  · intro point hpoint
    cases hpoint
  · intro _ r'
    rw [hfield]
    exact (live_used r r').trans (hsettled r')

theorem returns_testing (hobject : p.objects[shell]? ≠ none) (htallied : Tallied p log)
    (hsettled : Settled log (p.refOf shell))
    (h : survivor ((Point.testing.step kipfs shell address).run p) = some q) :
    Returns kipfs shell address p log .testing q := by
  rw [Point.step, EStateM.run_bind, run_getRef] at h
  dsimp only at h
  rw [Returns, Point.step, EStateM.run_bind, run_getRef]
  dsimp only
  by_cases hzero : p.refOf shell = 0
  · rw [if_neg (not_not.mpr hzero)] at h ⊢
    cases h
    refine ⟨_, _, rfl, .silent hobject htallied hsettled rfl ?_⟩
    intro point hpoint
    cases hpoint
  · rw [if_pos hzero] at h ⊢
    cases h
    refine ⟨_, _, rfl, .silent hobject htallied hsettled rfl ?_⟩
    intro point hpoint
    cases hpoint
    exact hzero

/-- Disposing the reference in the field leaves no live one. -/
theorem returns_disposing (hcontract : HandleContract kipfs) (hobject : p.objects[shell]? ≠ none)
    (htallied : Tallied p log) (hne : p.refOf shell ≠ 0) (hsettled : Settled log (p.refOf shell))
    (h : survivor (((Point.disposing (p.refOf shell)).step kipfs shell address).run p) = some q) :
    Returns kipfs shell address p log (.disposing (p.refOf shell)) q := by
  obtain ⟨_, q', hrun, ⟨hobjects, hdelete⟩, hpure⟩ :=
    survivor_bind
      (P := fun _ q => q.objects = p.objects ∧ p.refs.delete (p.refOf shell) = some q.refs)
      (fun q hq => ⟨(), hcontract.disposeGoObject (p.refOf shell) p q hq⟩) h
  cases hpure
  have hlive : Live log (p.refOf shell) := (hsettled _).mpr ⟨rfl, hne⟩
  refine ⟨some .resetting, none, ?_, ?_, htallied.disposed hlive hdelete, ?_, ?_, ?_⟩
  · rw [Point.step, EStateM.run_bind, hrun]
    rfl
  · rwa [hobjects]
  · intro point hpoint
    cases hpoint
    refine ⟨by rw [Process.refOf, hobjects]; exact hne, fun r' hlive' => ?_⟩
    obtain ⟨hbefore, hother⟩ := (live_disposed _ r').mp hlive'
    exact hother ((hsettled r').mp hbefore).1
  · intro hnext
    cases hnext _ rfl
  · intro hmutating
    cases hmutating

theorem returns_resetting (hobject : p.objects[shell]? ≠ none) (htallied : Tallied p log)
    (hnone : ∀ r, ¬ Live log r)
    (h : survivor ((Point.resetting.step kipfs shell address).run p) = some q) :
    Returns kipfs shell address p log .resetting q := by
  cases h
  obtain ⟨hobject', hfield⟩ := refOf_withRef hobject 0
  refine ⟨_, _, rfl, hobject', htallied.congr rfl, ?_, ?_, ?_⟩
  · intro point hpoint
    cases hpoint
  · intro _ r'
    rw [hfield]
    exact iff_of_false (hnone r') fun hzero => hzero.2 rfl
  · intro hmutating
    cases hmutating

/-- A step that the process survives has returned, and leaves everything as it should be. -/
theorem point_step (hcontract : HandleContract kipfs) (hobject : p.objects[shell]? ≠ none)
    (htallied : Tallied p log) (hok : point.Ok log (p.refOf shell))
    (hsettled : point.unsettled = false → Settled log (p.refOf shell))
    (h : survivor ((point.step kipfs shell address).run p) = some q) :
    Returns kipfs shell address p log point q := by
  cases point with
  | connecting after => exact returns_connecting hobject htallied (hsettled rfl) h
  | creating after => exact returns_creating hcontract htallied hobject hok (hsettled rfl) h
  | assigning r after => exact returns_assigning hobject htallied hok.2.1 hok.2.2 h
  | requesting command arg =>
      cases h
      refine ⟨_, _, rfl, .silent hobject htallied (hsettled rfl) rfl ?_⟩
      intro point hpoint
      cases hpoint
      exact ⟨rfl, hok⟩
  | calling r command arg => exact returns_calling hcontract hobject htallied (hsettled rfl) h
  | logging =>
      cases h
      refine ⟨_, _, rfl, .silent hobject htallied (hsettled rfl) rfl ?_⟩
      intro point hpoint
      cases hpoint
      trivial
  | testing => exact returns_testing hobject htallied (hsettled rfl) h
  | rereading =>
      cases h
      refine ⟨_, _, rfl, .silent hobject htallied (hsettled rfl) rfl ?_⟩
      intro point hpoint
      cases hpoint
      exact ⟨rfl, hok⟩
  | disposing r =>
      obtain ⟨rfl, hne⟩ := hok
      exact returns_disposing hcontract hobject htallied hne (hsettled rfl) h
  | resetting => exact returns_resetting hobject htallied hok.2 h

/-- What a client has found out looks at the live references only. -/
theorem Point.Ok.congr {log' : List Event} (h : point.Ok log ref)
    (hlive : ∀ r, Live log' r ↔ Live log r) : point.Ok log' ref := by
  cases point with
  | assigning r after => exact ⟨h.1, h.2.1, fun r' => (hlive r').trans (h.2.2 r')⟩
  | resetting => exact ⟨h.1, fun r hr => h.2 r ((hlive r).mp hr)⟩
  | _ => exact h

/-- A client that has found out nothing is right about the field. -/
theorem Point.Fresh.ok (h : point.Fresh) : point.Ok log ref := by
  obtain ⟨hmutating, husing⟩ := h
  cases point <;> trivial

theorem mutating_of_unsettled (h : point.unsettled = true) : point.mutating = true := by
  cases point <;> first | rfl | cases h

/-- A client that creates the reference has found the field empty, and it still is. -/
theorem Point.Ok.eq_zero (h : point.Ok log ref) (hcreates : point.creates = true) : ref = 0 := by
  cases point with
  | creating after => exact h
  | assigning r after => exact h.1
  | _ => cases hcreates

/-- A client that disposes or uses the reference has found one in the field, where it still is. -/
theorem Point.Ok.ne_zero (h : point.Ok log ref)
    (hneeds : (point.disposes || point.using) = true) : ref ≠ 0 := by
  cases point with
  | requesting command arg => exact h
  | calling r command arg => exact h.2
  | rereading => exact h
  | disposing r => exact h.2
  | resetting => exact h.1
  | _ => cases hneeds

/-- A client comes to create or dispose the reference by going on with it, by a `connect` that has
found the field empty, or by a test in `close`. -/
theorem mutating_cases {next : Option Point} {made : Option Int} {point' : Point}
    (hrun : (point.step kipfs shell address).run p = .ok (next, made) q)
    (hnext : next = some point') (hmutating : point'.mutating = true) :
    point.mutating = true ∨ (∃ after, point = .connecting after) ∧ p.refOf shell = 0 ∨
      point = .testing := by
  cases point with
  | connecting after =>
      rw [Point.step, EStateM.run_bind, run_getRef] at hrun
      dsimp only at hrun
      by_cases hzero : p.refOf shell = 0
      · exact .inr (.inl ⟨⟨after, rfl⟩, hzero⟩)
      · rw [if_pos hzero] at hrun
        cases hrun
        cases after with
        | finish => cases hnext
        | request command arg =>
            cases hnext
            cases hmutating
  | requesting command arg =>
      cases hrun
      cases hnext
      cases hmutating
  | calling r command arg =>
      obtain ⟨_, _, _, hrest⟩ := bind_eq_ok.mp hrun
      cases hrest
      cases hnext
  | logging =>
      cases hrun
      cases hnext
      cases hmutating
  | testing => exact .inr (.inr rfl)
  | _ => exact .inl rfl

/-- While another client creates or disposes the reference, a client that has found out nothing goes
on without finding out anything, or ends its call. -/
theorem run_waits {other : Point} (hfresh : point.Fresh) (hother : other.mutating = true)
    (hok : other.Ok log (p.refOf shell)) (hclashes : point.clashes other = false) :
    ∃ next, (point.step kipfs shell address).run p = .ok (next, none) p ∧ point.event = none ∧
      ∀ point', next = some point' → point'.Fresh := by
  rw [Point.mutating, Bool.or_eq_true] at hother
  cases point with
  | connecting after =>
      cases after with
      | finish =>
          -- the other is disposing what is in the field
          have hcreates : other.creates = false := hclashes
          have hne : p.refOf shell ≠ 0 := by
            refine hok.ne_zero ?_
            rw [hother.resolve_left (by simp [hcreates]), Bool.true_or]
          refine ⟨none, ?_, rfl, nofun⟩
          rw [Point.step, EStateM.run_bind, run_getRef]
          dsimp only
          rw [if_pos hne]
          rfl
      | request command arg =>
          have hneither : (other.creates || other.disposes) = false := hclashes
          rw [← Bool.or_eq_true, hneither] at hother
          cases hother
  | logging =>
      refine ⟨some .testing, rfl, rfl, fun point' hpoint' => ?_⟩
      cases hpoint'
      exact ⟨rfl, rfl⟩
  | testing =>
      -- the other is creating what is not yet in the field
      obtain ⟨hdisposes, _⟩ := Bool.or_eq_false_iff.mp hclashes
      have hzero : p.refOf shell = 0 := hok.eq_zero (hother.resolve_right (by simp [hdisposes]))
      refine ⟨none, ?_, rfl, nofun⟩
      rw [Point.step, EStateM.run_bind, run_getRef]
      dsimp only
      rw [if_neg (not_not.mpr hzero)]
      rfl
  | requesting command arg => cases hfresh.2
  | calling r command arg => cases hfresh.2
  | _ => cases hfresh.1

end Steps

end Kipfs.Clients
