import Kipfs.Kotlin.Clients

/-!
# Clients that get in each other's way

Two clients that connect at once can lose a reference, two that close at once dispose one twice,
and a client that closes can take the reference from one that is about to use it (`not_safe`). In
all of these a client tests the field at the wrong time: while another is creating the reference,
disposing it, or about to use it. `safe_run` says that runs without such tests are safe, and that a
client that connects and one that closes never make them.
-/

namespace Kipfs.Clients

open Foundation

/-! ## Runs -/

section Runs

variable {kipfs : KIPFSNative} {shell : Nat} {address : KString} {s s' : State} {client : Nat}

/-- Where a client is after it has gone on. -/
theorem points_self {next : Option Point} : Function.update s.points client next client = next :=
  Function.update_self _ _ _

/-- Where the other clients are after a client has gone on. -/
theorem points_of_ne {next : Option Point} {other : Nat} (hne : other ≠ client) :
    Function.update s.points client next other = s.points other := Function.update_of_ne hne _ _

/-- What holds of the point a client has gone on to, and of those of the others, holds of all. -/
theorem points_forall {P : Nat → Point → Prop} {next : Option Point}
    (hself : ∀ point, next = some point → P client point)
    (hothers : ∀ c point, c ≠ client → s.points c = some point → P c point) :
    ∀ c point, Function.update s.points client next c = some point → P c point := by
  intro c point hpoint
  by_cases hc : c = client
  · subst hc
    exact hself point (points_self.symm.trans hpoint)
  · exact hothers c point hc ((points_of_ne hc).symm.trans hpoint)

/-- A client that has found out nothing goes on, and still has not: this keeps the invariant, as
does starting and ending a call. -/
theorem inv_fresh (h : Inv shell s) {next : Option Point} (hended : s.ended = false)
    (hbefore : ∀ point, s.points client = some point → point.Fresh)
    (hafter : ∀ point, next = some point → point.Fresh) :
    Inv shell { s with points := Function.update s.points client next } := by
  obtain ⟨hobject, htallied, hapart, hok, hsettled⟩ := h.running hended
  -- a client that mutates or uses is one of the others
  have hothers : ∀ (P : Point → Bool), (∀ point, point.Fresh → P point = false) → ∀ c,
      (∃ point, Function.update s.points client next c = some point ∧ P point) →
        ∃ point, s.points c = some point ∧ P point := by
    rintro P hP c ⟨point, hpoint, hPpoint⟩
    refine points_forall (P := fun c point => P point → ∃ point, s.points c = some point ∧ P point)
      (fun point hnext hPpoint => ?_)
      (fun c point _ hpoint hPpoint => ⟨point, hpoint, hPpoint⟩) c point hpoint hPpoint
    rw [hP point (hafter point hnext)] at hPpoint
    cases hPpoint
  have hmutates := hothers Point.mutating fun _ hfresh => hfresh.1
  have huses := hothers Point.using fun _ hfresh => hfresh.2
  refine ⟨h.log, fun _ => ⟨hobject, htallied, fun c hc other hother => ?_,
    points_forall (fun point hnext => (hafter point hnext).ok) fun c point _ => hok c point,
    fun hall => hsettled fun c point hpoint => ?_⟩, fun hnot => nomatch hended.symm.trans hnot⟩
  · obtain ⟨hnot, hnot'⟩ := hapart c (hmutates c hc) other hother
    exact ⟨fun hm => hnot (hmutates other hm), fun hu => hnot' (huses other hu)⟩
  · by_cases hc : c = client
    · subst hc
      refine Bool.eq_false_iff.mpr fun hunsettled => ?_
      cases (mutating_of_unsettled hunsettled).symm.trans (hbefore point hpoint).1
    · exact hall c point ((points_of_ne hc).trans hpoint)

/-- A step that returned keeps the invariant, when no other client is creating or disposing the
reference, and none uses it if it comes to that itself. -/
theorem inv_returned (h : Inv shell s) (hended : s.ended = false) {point : Point}
    {next : Option Point} {made : Option Int} {q : Process} (hpoint : s.points client = some point)
    (halone : ∀ other, other ≠ client → ¬ Mutating s other)
    (hunused : ∀ point', next = some point' → point'.mutating →
      ∀ other, other ≠ client → ¬ Using s other)
    (hlog : LogSafe (point.event.toList ++ s.log))
    (hstepped : Stepped shell s.process s.log point next made q) :
    Inv shell { s with
      process := q
      points := Function.update s.points client next
      log := logAfter s.log point made } := by
  obtain ⟨hobject, htallied, hapart, hok, hsettled⟩ := h.running hended
  refine ⟨?_, fun _ => ⟨hstepped.object, hstepped.tallied, fun c hc other hother => ?_,
    points_forall hstepped.ok fun c point' hclient hbefore => ?_,
    fun hall => hstepped.settled fun point' hpoint' => ?_⟩,
    fun hnot => nomatch hended.symm.trans hnot⟩
  · cases made with
    | none => exact hlog
    | some r => exact logSafe_created hlog r
  · -- only the client that made the step can have come to create or dispose
    obtain ⟨point', hpoint', hmutating⟩ := hc
    by_cases hclient : c = client
    · subst hclient
      have hnext : next = some point' := (points_self (s := s)).symm.trans hpoint'
      have hsame : Function.update s.points c next other = s.points other := points_of_ne hother
      constructor
      · rintro ⟨point'', hpoint'', hmutating''⟩
        exact halone other hother ⟨point'', hsame.symm.trans hpoint'', hmutating''⟩
      · rintro ⟨point'', hpoint'', husing⟩
        exact hunused point' hnext hmutating other hother
          ⟨point'', hsame.symm.trans hpoint'', husing⟩
    · exact absurd ⟨point', (points_of_ne hclient).symm.trans hpoint', hmutating⟩ (halone c hclient)
  · cases hmutating : point.mutating with
    | true =>
        -- the others have found out nothing that the step could make wrong
        obtain ⟨hnot, hnot'⟩ := hapart client ⟨point, hpoint, hmutating⟩ c hclient
        refine Point.Fresh.ok ⟨?_, ?_⟩
        · exact Bool.eq_false_iff.mpr fun hm => hnot ⟨point', hbefore, hm⟩
        · exact Bool.eq_false_iff.mpr fun hu => hnot' ⟨point', hbefore, hu⟩
    | false =>
        obtain ⟨hlive, hfield⟩ := hstepped.kept hmutating
        show Point.Ok _ (q.refOf shell) point'
        rw [hfield]
        exact (hok c point' hbefore).congr hlive
  · exact hall client point' ((points_self (s := s)).trans hpoint')

/-- A client that is not itself between the call into Go and the field sees a settled field, when no
other client is creating or disposing. -/
theorem Running.settled_alone (h : Running shell s) {point : Point}
    (hpoint : s.points client = some point) (halone : ∀ other, other ≠ client → ¬ Mutating s other)
    (hpresent : point.unsettled = false) : Settled s.log (s.process.refOf shell) := by
  refine h.settled fun other point' hpoint' => ?_
  by_cases hother : other = client
  · subst hother
    cases hpoint.symm.trans hpoint'
    exact hpresent
  · refine Bool.eq_false_iff.mpr fun hunsettled => halone other hother ⟨point', hpoint', ?_⟩
    exact mutating_of_unsettled hunsettled

/-- A client that comes to create or dispose the reference finds it used by no other. -/
theorem Running.unused (h : Running shell s) {point : Point} {next : Option Point}
    {made : Option Int} {q : Process} (hpoint : s.points client = some point)
    (hundisturbed : Undisturbed s (.advance client))
    (hrun : (point.step kipfs shell address).run s.process = .ok (next, made) q) {point' : Point}
    (hnext : next = some point') (hmutating : point'.mutating = true) {other : Nat}
    (hother : other ≠ client) : ¬ Using s other := by
  rintro ⟨point'', hpoint'', husing⟩
  rcases mutating_cases hrun hnext hmutating with hbefore | ⟨_, hzero⟩ | rfl
  · exact (h.apart client ⟨point, hpoint, hbefore⟩ other hother).2 ⟨point'', hpoint'', husing⟩
  · -- what is used is in the field
    refine (h.ok other point'' hpoint'').ne_zero ?_ hzero
    rw [husing, Bool.or_true]
  · have hclashes := hundisturbed other hother .testing hpoint point'' hpoint''
    rw [(Bool.or_eq_false_iff.mp hclashes).2] at husing
    cases husing

/-- **An undisturbed step keeps the invariant.** -/
theorem inv_advance (hcontract : HandleContract kipfs) (h : Inv shell s)
    (hundisturbed : Undisturbed s (.advance client))
    (hmove : step kipfs shell address s (.advance client) = some s') : Inv shell s' := by
  simp only [step] at hmove
  split at hmove
  · cases hmove
  rename_i point hpoint
  split at hmove
  · cases hmove
  rename_i hnot
  have hended : s.ended = false := Bool.eq_false_iff.mpr hnot
  have hrunning := h.running hended
  by_cases hother : ∃ other, other ≠ client ∧ Mutating s other
  · -- another client is creating or disposing, so this one has found out nothing and does not now
    obtain ⟨other, hne, point', hpoint', hmutating⟩ := hother
    obtain ⟨hidle, hunused⟩ := hrunning.apart other ⟨point', hpoint', hmutating⟩ client hne.symm
    have hfresh : point.Fresh :=
      ⟨Bool.eq_false_iff.mpr fun hm => hidle ⟨point, hpoint, hm⟩,
        Bool.eq_false_iff.mpr fun hu => hunused ⟨point, hpoint, hu⟩⟩
    obtain ⟨next, hrun, hevent, hafter⟩ : ∃ next,
        (point.step kipfs shell address).run s.process = .ok (next, none) s.process ∧
          point.event = none ∧ ∀ point', next = some point' → point'.Fresh :=
      run_waits hfresh hmutating (hrunning.ok other point' hpoint')
        (hundisturbed other hne point hpoint point' hpoint')
    rw [hrun] at hmove
    cases hmove
    have hlog :
        (Option.map Event.created none).toList ++ (point.event.toList ++ s.log) = s.log := by
      rw [hevent]
      rfl
    rw [hlog]
    refine inv_fresh h hended (fun point₁ hpoint₁ => ?_) hafter
    cases hpoint.symm.trans hpoint₁
    exact hfresh
  · have halone : ∀ other, other ≠ client → ¬ Mutating s other :=
      fun other hne hmutating => hother ⟨other, hne, hmutating⟩
    have hok : point.Ok s.log (s.process.refOf shell) := hrunning.ok client point hpoint
    have hsettled : point.unsettled = false → Settled s.log (s.process.refOf shell) :=
      hrunning.settled_alone hpoint halone
    have hlog : LogSafe (point.event.toList ++ s.log) := logSafe_event h.log hok hsettled
    have hsurvive : ∀ q, survivor ((point.step kipfs shell address).run s.process) = some q →
        Returns kipfs shell address s.process s.log point q := fun q =>
      point_step hcontract hrunning.object hrunning.tallied hok hsettled
    split at hmove
    · rename_i next made q hrun
      cases hmove
      obtain ⟨_, _, hrun', hstepped⟩ := hsurvive q (by rw [hrun]; rfl)
      cases hrun.symm.trans hrun'
      exact inv_returned h hended hpoint halone (fun point' hnext hmutating other hne =>
        hrunning.unused hpoint hundisturbed hrun hnext hmutating hne) hlog hstepped
    · rename_i message q hrun
      obtain ⟨_, _, hrun', _⟩ := hsurvive q (by rw [hrun]; rfl)
      cases hrun.symm.trans hrun'
    · -- the step has ended the process, and the client stays in its call
      cases hmove
      refine ⟨hlog, ?_, fun _ => ⟨client, ?_⟩⟩
      · intro hended'
        cases hended'
      · rw [hpoint]
        exact Option.some_ne_none point

/-- An undisturbed move keeps the invariant. -/
theorem inv_step (hcontract : HandleContract kipfs) (h : Inv shell s) {m : Move}
    (hundisturbed : Undisturbed s m) (hmove : step kipfs shell address s m = some s') :
    Inv shell s' := by
  cases m with
  | call client method =>
      simp only [step, Option.ite_none_right_eq_some] at hmove
      obtain ⟨⟨hended, hidle⟩, hmove⟩ := hmove
      cases hmove
      refine inv_fresh h hended (fun point hpoint => ?_) fun point hpoint => ?_
      · cases hidle.symm.trans hpoint
      · cases hpoint
        cases method <;> exact ⟨rfl, rfl⟩
  | advance client => exact inv_advance hcontract h hundisturbed hmove

/-- The state in which no client has called yet. -/
def State.start (p : Process) : State := ⟨p, fun _ => none, [], false⟩

theorem inv_start {p : Process} (hshell : p.objects[shell]? = some ⟨.shell address, 0⟩) :
    Inv shell (State.start p) := by
  refine ⟨⟨fun _ => Nat.zero_le _, fun later ref earlier hlog => ?_⟩, fun _ => ?_, nofun⟩
  · cases later <;> cases hlog
  · refine ⟨by rw [State.start, hshell]; exact nofun, ⟨nofun, nofun⟩, nofun, nofun, fun _ ref => ?_⟩
    have hfield : p.refOf shell = 0 := refOf_eq hshell
    rw [State.start, hfield]
    exact iff_of_false (fun hlive => nomatch hlive.1) fun hzero => hzero.2 rfl

/-- The invariant is more than a shell owes its reference. -/
theorem Inv.safe (h : Inv shell s) : Safe shell s := by
  refine ⟨h.log.once, fun hidle => ?_, h.log.used⟩
  have hended : s.ended = false := by
    refine Bool.eq_false_iff.mpr fun hended => ?_
    obtain ⟨client, hbusy⟩ := h.ended hended
    exact hbusy (hidle client)
  refine (h.running hended).settled fun client point hpoint => ?_
  exact nomatch (hidle client).symm.trans hpoint

/-! ## Methods -/

/-- The method that a client is in, by what follows its `connect`. -/
def After.method : After → Method
  | finish => .connect
  | request command arg => .request command arg

/-- The method that a client is in. -/
def Point.method : Point → Method
  | connecting after => after.method
  | creating after => after.method
  | assigning _ after => after.method
  | requesting command arg => .request command arg
  | calling _ command arg => .request command arg
  | _ => .close

theorem method_point (method : Method) : method.point.method = method := by
  cases method <;> rfl

theorem After.method_of_point {after : After} {point : Point} (h : after.point = some point) :
    point.method = after.method := by
  cases after with
  | finish => cases h
  | request command arg =>
      cases h
      rfl

/-- A step stays in its method. -/
theorem method_step {point point' : Point} {p q : Process} {next : Option Point}
    {made : Option Int} (hrun : (point.step kipfs shell address).run p = .ok (next, made) q)
    (hnext : next = some point') : point'.method = point.method := by
  cases point with
  | connecting after =>
      rw [Point.step, EStateM.run_bind, run_getRef] at hrun
      dsimp only at hrun
      split at hrun
      · cases hrun
        exact After.method_of_point hnext
      · cases hrun
        cases hnext
        rfl
  | creating after =>
      obtain ⟨ref, _, _, hrest⟩ := bind_eq_ok.mp hrun
      cases hrest
      cases hnext
      rfl
  | assigning ref after =>
      cases hrun
      exact After.method_of_point hnext
  | calling ref command arg =>
      obtain ⟨_, _, _, hrest⟩ := bind_eq_ok.mp hrun
      cases hrest
      cases hnext
  | testing =>
      rw [Point.step, EStateM.run_bind, run_getRef] at hrun
      dsimp only at hrun
      split at hrun
      · cases hrun
        cases hnext
        rfl
      · cases hrun
        cases hnext
  | disposing ref =>
      obtain ⟨_, _, _, hrest⟩ := bind_eq_ok.mp hrun
      cases hrest
      cases hnext
      rfl
  | resetting =>
      cases hrun
      cases hnext
  | _ =>
      cases hrun
      cases hnext
      rfl

/-- One client connects and the other closes. -/
def OpensOrCloses (opener closer client : Nat) (method : Method) : Prop :=
  client = opener ∧ method = .connect ∨ client = closer ∧ method = .close

/-- Clients are in methods that they have called. -/
def Within (allowed : Nat → Method → Prop) (s : State) : Prop :=
  ∀ client point, s.points client = some point → allowed client point.method

/-- The move, when it is a call, is one that is allowed. -/
def Allowed (allowed : Nat → Method → Prop) : Move → Prop
  | .call client method => allowed client method
  | .advance _ => True

theorem within_step {allowed : Nat → Method → Prop} {m : Move} (h : Within allowed s)
    (hallowed : Allowed allowed m) (hmove : step kipfs shell address s m = some s') :
    Within allowed s' := by
  have hupdate : ∀ {client : Nat} {next : Option Point},
      (∀ point, next = some point → allowed client point.method) → ∀ c point,
        Function.update s.points client next c = some point → allowed c point.method :=
    fun hnext => points_forall hnext fun c point _ => h c point
  cases m with
  | call client method =>
      simp only [step, Option.ite_none_right_eq_some] at hmove
      obtain ⟨_, hmove⟩ := hmove
      cases hmove
      refine hupdate fun point hpoint => ?_
      cases hpoint
      rw [method_point]
      exact hallowed
  | advance client =>
      simp only [step] at hmove
      split at hmove
      · cases hmove
      rename_i point hpoint
      split at hmove
      · cases hmove
      split at hmove
      · rename_i next made q hrun
        cases hmove
        refine hupdate fun point' hnext => ?_
        rw [method_step hrun hnext]
        exact h client point hpoint
      · cases hmove
        refine hupdate fun point hnext => ?_
        cases hnext
      · cases hmove
        exact h

/-- The tests of `connect` and of `close` are not at the wrong time for the other. -/
theorem clashes_connect_close {point point' : Point} (h : point.method = .connect)
    (h' : point'.method = .close) :
    point.clashes point' = false ∧ point'.clashes point = false := by
  have hafter : ∀ {after : After}, after.method = .connect → after = .finish := by
    intro after hafter
    cases after with
    | finish => rfl
    | request command arg => cases hafter
  have hother : ∀ {after : After}, after.method ≠ .close := by
    intro after hafter
    cases after <;> cases hafter
  cases point with
  | connecting after | creating after | assigning ref after =>
      obtain rfl := hafter h
      cases point' with
      | connecting after | creating after | assigning ref after => exact absurd h' hother
      | requesting command arg | calling ref command arg => cases h'
      | _ => exact ⟨rfl, rfl⟩
  | _ => cases h

/-- **On either binding, after any run of any number of clients in which no test of the field comes
at the wrong time, the shell has disposed no reference twice, the live reference is the one in the
field when no client is in a call, and only live references have been used.** Runs in which one
client connects and another closes are all such runs. -/
theorem safe_run (env : Env)
    (hkipfs : kipfs = native (libkipfs env) ∨ kipfs = jvm (libkipfs env)) {p : Process}
    (hshell : p.objects[shell]? = some ⟨.shell address, 0⟩) {moves : List Move}
    (hrun : run (step kipfs shell address) (State.start p) moves = some s) :
    (Along (step kipfs shell address) Undisturbed (State.start p) moves → Safe shell s) ∧
      ∀ opener closer,
        (∀ client method, .call client method ∈ moves →
          OpensOrCloses opener closer client method) → Safe shell s := by
  have hcontract : HandleContract kipfs := by
    rcases hkipfs with rfl | rfl
    · exact native_contract env
    · exact jvm_contract env
  have hsafe : Along (step kipfs shell address) Undisturbed (State.start p) moves → Safe shell s :=
    fun hundisturbed =>
      have hinv : Inv shell s := run_invariant_along
        (fun _ _ _ h hundisturbed hmove => inv_step hcontract h hundisturbed hmove)
        (inv_start hshell) hundisturbed hrun
      hinv.safe
  refine ⟨hsafe, fun opener closer hcalls => hsafe ?_⟩
  have halong : Along (step kipfs shell address)
      (fun _ => Allowed (OpensOrCloses opener closer)) (State.start p) moves := by
    refine along_of_forall fun m hm _ => ?_
    cases m with
    | call client method => exact hcalls client method hm
    | advance client => trivial
  refine halong.of_invariant (fun _ _ _ (hwithin : Within (OpensOrCloses opener closer) _) =>
    within_step hwithin) ?_ nofun
  rintro s (⟨client, method⟩ | client) hwithin -
  · trivial
  · intro other hother point hpoint point' hpoint'
    rcases hwithin client point hpoint with ⟨rfl, hmethod⟩ | ⟨rfl, hmethod⟩ <;>
      rcases hwithin other point' hpoint' with ⟨rfl, hmethod'⟩ | ⟨rfl, hmethod'⟩
    · exact absurd rfl hother
    · exact (clashes_connect_close hmethod hmethod').1
    · exact (clashes_connect_close hmethod' hmethod).2
    · exact absurd rfl hother

end Runs

/-! ## Some runs -/

/-- The move is one of the given clients, and disturbs none of them. -/
def Among (clients : List Nat) (s : State) : Move → Prop
  | .call client _ => client ∈ clients
  | .advance client => ∀ other ∈ clients, other ≠ client → ∀ point ∈ s.points client,
      ∀ point' ∈ s.points other, point.clashes point' = false

instance (clients : List Nat) (s : State) : (m : Move) → Decidable (Among clients s m)
  | .call client _ => inferInstanceAs (Decidable (client ∈ clients))
  | .advance client => inferInstanceAs (Decidable (∀ other ∈ clients, other ≠ client →
      ∀ point ∈ s.points client, ∀ point' ∈ s.points other, point.clashes point' = false))

section Among

variable {kipfs : KIPFSNative} {shell : Nat} {address : KString} {s s' : State}
  {clients : List Nat} {m : Move}

/-- Only the given clients come to be in a call. -/
theorem idle_step (hidle : ∀ client, client ∉ clients → s.points client = none)
    (hamong : Among clients s m) (hmove : step kipfs shell address s m = some s') :
    ∀ client, client ∉ clients → s'.points client = none := by
  have hupdate : ∀ {client : Nat} {next : Option Point}, client ∈ clients → ∀ c, c ∉ clients →
      Function.update s.points client next c = none := by
    intro client next hclient c hc
    have hne : c ≠ client := fun heq => hc (heq ▸ hclient)
    rw [points_of_ne hne]
    exact hidle c hc
  cases m with
  | call client method =>
      simp only [step, Option.ite_none_right_eq_some] at hmove
      obtain ⟨_, hmove⟩ := hmove
      cases hmove
      exact hupdate hamong
  | advance client =>
      simp only [step] at hmove
      split at hmove
      · cases hmove
      rename_i point hpoint
      have hclient : client ∈ clients := by
        by_contra hnot
        cases (hidle client hnot).symm.trans hpoint
      split at hmove
      · cases hmove
      split at hmove <;> cases hmove
      · exact hupdate hclient
      · exact hupdate hclient
      · exact hidle

theorem undisturbed_of_among (hidle : ∀ client, client ∉ clients → s.points client = none)
    (hamong : Among clients s m) : Undisturbed s m := by
  cases m with
  | call client method => trivial
  | advance client =>
      intro other hother point hpoint point' hpoint'
      have hmem : other ∈ clients := by
        by_contra hnot
        cases (hidle other hnot).symm.trans hpoint'
      exact hamong other hmem hother point hpoint point' hpoint'

end Among

/-- What follows from the log of a run holds of the state that it ends in. -/
theorem exists_logged {kipfs : KIPFSNative} {shell : Nat} {address : KString} {s : State}
    {moves : List Move} {P : State → Prop} (log : List Event)
    (hrun : (run (step kipfs shell address) s moves).map State.log = some log)
    (hlogged : ∀ s', s'.log = log → P s') :
    ∃ s', run (step kipfs shell address) s moves = some s' ∧ P s' := by
  obtain ⟨s', hrun, hlog⟩ := Option.map_eq_some_iff.mp hrun
  exact ⟨s', hrun, hlogged s' hlog⟩

/-- A client connects while another closes, and then a third makes a request while the first
connects again and the second closes. -/
def threeClients : List Move :=
  [.call 0 .connect, .advance 0, .call 1 .close, .advance 1, .advance 1, .advance 0, .advance 0,
    .call 0 .connect, .call 1 .close, .call 2 (.request [112] none), .advance 1, .advance 1,
    .advance 0, .advance 1, .advance 1, .advance 1, .advance 2, .call 1 .close, .advance 1,
    .advance 1, .advance 2, .advance 2, .call 0 .connect, .advance 2, .advance 0, .advance 2]

/-- Three clients do not disturb each other, and neither do two of which one connects and one
closes. -/
theorem safe_threeClients :
    (∃ s, run (step (native (libkipfs standalone)) 0 [104]) (State.start oneShell) threeClients =
        some s ∧ s.log = [.used (-25), .created (-25), .disposed (-24), .created (-24)] ∧
        Safe 0 s) ∧
      ∃ s, run (step (jvm (libkipfs standalone)) 0 [104]) (State.start oneShell)
          [.call 0 .connect, .call 1 .close, .advance 0, .advance 1, .advance 1, .advance 0,
            .call 1 .close, .advance 1, .advance 0, .call 0 .connect, .advance 1, .advance 0,
            .advance 1, .call 0 .connect, .advance 1, .advance 0, .advance 1] = some s ∧
        s.log = [.disposed (-24), .created (-24)] ∧ Safe 0 s := by
  constructor
  · have hrun : run (step (native (libkipfs standalone)) 0 [104]) (State.start oneShell)
        threeClients = some _ := rfl
    refine ⟨_, hrun, rfl, (safe_run standalone (.inl rfl) rfl hrun).1 ?_⟩
    have hamong : Along (step (native (libkipfs standalone)) 0 [104]) (Among [0, 1, 2])
        (State.start oneShell) threeClients := by decide +kernel
    exact hamong.of_invariant (fun _ _ _ => idle_step) (fun _ _ => undisturbed_of_among)
      fun _ _ => rfl
  · have hrun : run (step (jvm (libkipfs standalone)) 0 [104]) (State.start oneShell)
        [.call 0 .connect, .call 1 .close, .advance 0, .advance 1, .advance 1, .advance 0,
          .call 1 .close, .advance 1, .advance 0, .call 0 .connect, .advance 1, .advance 0,
          .advance 1, .call 0 .connect, .advance 1, .advance 0, .advance 1] = some _ := rfl
    refine ⟨_, hrun, rfl, (safe_run standalone (.inr rfl) rfl hrun).2 0 1 ?_⟩
    intro client method hcall
    simp only [List.mem_cons, Move.call.injEq, reduceCtorEq, false_or, List.not_mem_nil,
      or_false] at hcall
    rcases hcall with ⟨rfl, rfl⟩ | ⟨rfl, rfl⟩ | ⟨rfl, rfl⟩ | ⟨rfl, rfl⟩ | ⟨rfl, rfl⟩ <;>
      simp [OpensOrCloses]

/-- Two clients that connect at once lose a reference; two that close at once dispose one twice; a
client that closes takes away the reference that another is about to use, whether that one has gone
past its `connect` before or does so in the middle. -/
theorem not_safe :
    (∃ s, run (step (native (libkipfs standalone)) 0 [104]) (State.start oneShell)
        [.call 0 .connect, .call 1 .connect, .advance 0, .advance 1, .advance 0, .advance 0,
          .advance 1, .advance 1] = some s ∧
      (∀ client, s.points client = none) ∧ Live s.log (-24) ∧ s.process.refOf 0 = -25 ∧
      ¬ Safe 0 s) ∧
    (∃ s, run (step (native (libkipfs standalone)) 0 [104]) (State.start oneShell)
        [.call 0 .connect, .advance 0, .advance 0, .advance 0, .call 0 .close, .call 1 .close,
          .advance 0, .advance 0, .advance 0, .advance 1, .advance 1, .advance 1, .advance 0,
          .advance 1] = some s ∧
      s.log.count (.disposed (-24)) = 2 ∧ ¬ Safe 0 s) ∧
    (∃ s, run (step (native (libkipfs standalone)) 0 [104]) (State.start oneShell)
        [.call 0 .connect, .advance 0, .advance 0, .advance 0, .call 0 (.request [] none),
          .call 1 .close, .advance 0, .advance 0, .advance 1, .advance 1, .advance 1, .advance 1,
          .advance 0] = some s ∧
      s.log.head? = some (.used (-24)) ∧ .disposed (-24) ∈ s.log ∧ ¬ Safe 0 s) ∧
    ∃ s, run (step (native (libkipfs standalone)) 0 [104]) (State.start oneShell)
        [.call 0 .connect, .advance 0, .advance 0, .advance 0, .call 0 (.request [] none),
          .call 1 .close, .advance 1, .advance 1, .advance 0, .advance 0, .advance 1, .advance 1,
          .advance 0] = some s ∧
      s.log.head? = some (.used (-24)) ∧ .disposed (-24) ∈ s.log ∧ ¬ Safe 0 s := by
  have hused : ∀ s : State, s.log = [.used (-24), .disposed (-24), .created (-24)] →
      s.log.head? = some (.used (-24)) ∧ .disposed (-24) ∈ s.log ∧ ¬ Safe 0 s := by
    intro s hlog
    refine ⟨by rw [hlog]; rfl, by rw [hlog]; decide, fun hsafe => ?_⟩
    exact (hsafe.used [] (-24) _ hlog).2 (by decide)
  refine ⟨⟨_, rfl, fun client => ?_, ⟨by decide, by decide⟩, rfl, fun hsafe => ?_⟩, ?_, ?_, ?_⟩
  · rcases client with _ | _ | client <;> rfl
  · have hidle := hsafe.settled fun client => by rcases client with _ | _ | client <;> rfl
    exact absurd ((hidle (-24)).mp ⟨by decide, by decide⟩).1 (by decide)
  · refine exists_logged [.disposed (-24), .disposed (-24), .created (-24)] (by decide +kernel)
      fun s hlog => ?_
    have htwice : s.log.count (.disposed (-24)) = 2 := by rw [hlog]; decide
    refine ⟨htwice, fun hsafe => ?_⟩
    have honce := hsafe.once (-24)
    omega
  · exact exists_logged _ (by decide +kernel) hused
  · exact exists_logged _ (by decide +kernel) hused

end Kipfs.Clients
