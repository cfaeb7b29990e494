import Mathlib.Data.List.Infix

/-!
# Runs of a partial step function

A system is given by a step function that may refuse an action.  A run is a
list of actions, each of them enabled in the state the earlier ones lead to.
This file fixes the vocabulary for statements about whole runs: `Always` says
that a predicate holds in every state a run passes through, `EachStep` that
every step of the run is taken in a state which meets a condition.

`always_iff_eachStep` is the rule behind every exactness result: when a
condition decides, from a good state, whether the next state is good again,
then the runs that stay good are precisely those whose steps all meet it.
-/

namespace MuduoChat.Runs

variable {State Action : Type*}

section Step

variable (step : State → Action → Option State)

def runFrom : State → List Action → Option State
  | state, [] => some state
  | state, action :: rest =>
      (step state action).bind fun next => runFrom next rest

/-- `good` holds in every state visited while performing `actions`. -/
def Always (good : State → Prop) (start : State)
    (actions : List Action) : Prop :=
  ∀ before state, before <+: actions →
    runFrom step start before = some state → good state

/-- Every action of the run is performed in a state where `ok` allows it. -/
def EachStep (ok : State → Action → Prop) (start : State)
    (actions : List Action) : Prop :=
  ∀ before action state next, before ++ [action] <+: actions →
    runFrom step start before = some state →
      step state action = some next → ok state action

end Step

variable {step : State → Action → Option State}

@[simp] theorem runFrom_nil (start : State) :
    runFrom step start [] = some start := rfl

@[simp] theorem runFrom_cons
    (start : State) (action : Action) (rest : List Action) :
    runFrom step start (action :: rest) =
      (step start action).bind fun next => runFrom step next rest := rfl

theorem runFrom_append
    (start : State) (first second : List Action) :
    runFrom step start (first ++ second) =
      (runFrom step start first).bind
        fun middle => runFrom step middle second := by
  induction first generalizing start with
  | nil => simp
  | cons action rest ih =>
      simp only [List.cons_append, runFrom_cons]
      cases step start action with
      | none => rfl
      | some next => simpa using ih next

theorem runFrom_concat
    {start state next : State} {actions : List Action} {action : Action}
    (hrun : runFrom step start actions = some state)
    (hstep : step state action = some next) :
    runFrom step start (actions ++ [action]) = some next := by
  rw [runFrom_append, hrun]
  simp [hstep]

theorem runFrom_concat_eq_some
    {start next : State} {actions : List Action} {action : Action}
    (hrun : runFrom step start (actions ++ [action]) = some next) :
    ∃ state, runFrom step start actions = some state ∧
      step state action = some next := by
  rw [runFrom_append] at hrun
  cases hfirst : runFrom step start actions with
  | none => simp [hfirst] at hrun
  | some state =>
      have hstep : step state action = some next := by
        simpa [hfirst] using hrun
      exact ⟨state, rfl, hstep⟩

/-! ## Conditions on the steps of a run -/

theorem eachStep_of_forall
    {ok : State → Action → Prop} {start : State} {actions : List Action}
    (hok : ∀ action ∈ actions, ∀ state, ok state action) :
    EachStep step ok start actions := by
  intro before action state next hinit _ _
  exact hok action
    (hinit.subset (List.mem_append_right before List.mem_cons_self)) state

theorem eachStep_cons
    {ok : State → Action → Prop} {start : State}
    {action : Action} {rest : List Action} :
    EachStep step ok start (action :: rest) ↔
      ∀ next, step start action = some next →
        ok start action ∧ EachStep step ok next rest := by
  constructor
  · intro hok next hstep
    have hfirst : ok start action :=
      hok [] action start next (by simp) rfl hstep
    have hrest : EachStep step ok next rest := by
      intro before other state after hinit hrun hother
      have hbefore :
          runFrom step start (action :: before) = some state := by
        simpa [hstep] using hrun
      exact hok (action :: before) other state after (by simpa using hinit)
        hbefore hother
    exact ⟨hfirst, hrest⟩
  · intro hok before other state after hinit hrun hother
    cases before with
    | nil =>
        simp only [List.nil_append, List.cons_prefix_cons,
          List.nil_prefix, and_true] at hinit
        cases hrun
        subst hinit
        exact (hok after hother).1
    | cons first before =>
        simp only [List.cons_append, List.cons_prefix_cons] at hinit
        obtain ⟨rfl, hinit⟩ := hinit
        obtain ⟨next, hstep, hrun⟩ := Option.bind_eq_some_iff.mp hrun
        exact (hok next hstep).2 before other state after hinit hrun hother

theorem eachStep_nil {ok : State → Action → Prop} {start : State} :
    EachStep step ok start [] := by
  intro before action state next hinit
  simp at hinit

theorem EachStep.cons
    {ok : State → Action → Prop} {start next : State}
    {action : Action} {rest : List Action}
    (hstep : step start action = some next) (hok : ok start action)
    (hrest : EachStep step ok next rest) :
    EachStep step ok start (action :: rest) := by
  rw [eachStep_cons]
  intro after hafter
  rw [hstep] at hafter
  cases hafter
  exact ⟨hok, hrest⟩

theorem EachStep.append
    {ok : State → Action → Prop} {start : State}
    {first second : List Action}
    (hfirst : EachStep step ok start first)
    (hsecond : ∀ middle, runFrom step start first = some middle →
      EachStep step ok middle second) :
    EachStep step ok start (first ++ second) := by
  induction first generalizing start with
  | nil => exact hsecond start rfl
  | cons action rest ih =>
      rw [List.cons_append, eachStep_cons]
      intro next hstep
      obtain ⟨hok, hrest⟩ := eachStep_cons.mp hfirst next hstep
      have hlater : ∀ middle, runFrom step next rest = some middle →
          EachStep step ok middle second := by
        intro middle hrun
        exact hsecond middle (by simp [hstep, hrun])
      exact ⟨hok, ih hrest hlater⟩

theorem EachStep.after
    {ok : State → Action → Prop} {start state : State}
    {actions before rest : List Action}
    (hok : EachStep step ok start actions)
    (hinit : before ++ rest <+: actions)
    (hbefore : runFrom step start before = some state) :
    EachStep step ok state rest := by
  intro first action middle next hfirst hrun hstep
  have hinit : (before ++ first) ++ [action] <+: actions := by
    rw [List.append_assoc]
    exact (List.prefix_append_right_inj before |>.mpr hfirst).trans hinit
  have hmiddle : runFrom step start (before ++ first) = some middle := by
    rw [runFrom_append, hbefore]
    exact hrun
  exact hok (before ++ first) action middle next hinit hmiddle hstep

/-! ## Invariants -/

theorem always_of_eachStep
    {good : State → Prop} {ok : State → Action → Prop} {start : State}
    (hstart : good start)
    (hkeep : ∀ state action next, step state action = some next →
      good state → ok state action → good next)
    {actions : List Action}
    (hok : EachStep step ok start actions) :
    Always step good start actions := by
  intro before
  induction before using List.reverseRecOn with
  | nil =>
      intro state _ hrun
      simp only [runFrom_nil, Option.some.injEq] at hrun
      exact hrun ▸ hstart
  | append_singleton before action ih =>
      intro next hinit hrun
      obtain ⟨state, hbefore, hstep⟩ := runFrom_concat_eq_some hrun
      have hgood : good state :=
        ih state ((List.prefix_append before [action]).trans hinit) hbefore
      exact hkeep state action next hstep hgood
        (hok before action state next hinit hbefore hstep)

theorem invariant_of_run
    {good : State → Prop} {start state : State} {actions : List Action}
    (hstart : good start)
    (hkeep : ∀ state action next, step state action = some next →
      good state → good next)
    (hrun : runFrom step start actions = some state) :
    good state :=
  always_of_eachStep hstart
    (fun state action next hstep hgood _ =>
      hkeep state action next hstep hgood)
    (eachStep_of_forall fun _ _ _ => trivial) actions state
    (List.prefix_refl actions) hrun

/-- Exactness with an invariant that says more than the property itself:
allowed steps keep the invariant, and a step that keeps the property was
allowed.  The runs all of whose states are good are then exactly the runs all
of whose steps are allowed. -/
theorem always_iff_eachStep_of_inv
    {inv good : State → Prop} {ok : State → Action → Prop} {start : State}
    (hstart : inv start) (hgood : ∀ state, inv state → good state)
    (hkeep : ∀ state action next, step state action = some next →
      inv state → ok state action → inv next)
    (hneed : ∀ state action next, step state action = some next →
      inv state → good next → ok state action)
    (actions : List Action) :
    Always step good start actions ↔ EachStep step ok start actions := by
  constructor
  · intro halways
    have hallowed (before : List Action) (action : Action)
        (state next : State) (hinit : before ++ [action] <+: actions)
        (hrun : runFrom step start before = some state)
        (hstep : step state action = some next) (hinv : inv state) :
        ok state action :=
      hneed state action next hstep hinv
        (halways (before ++ [action]) next hinit
          (runFrom_concat hrun hstep))
    have hinv : Always step inv start actions := by
      intro before
      induction before using List.reverseRecOn with
      | nil =>
          intro state _ hrun
          cases hrun
          exact hstart
      | append_singleton before action ih =>
          intro next hinit hrun
          obtain ⟨state, hbefore, hstep⟩ := runFrom_concat_eq_some hrun
          have hstate : inv state :=
            ih state ((List.prefix_append before [action]).trans hinit)
              hbefore
          exact hkeep state action next hstep hstate
            (hallowed before action state next hinit hbefore hstep hstate)
    intro before action state next hinit hrun hstep
    exact hallowed before action state next hinit hrun hstep
      (hinv before state ((List.prefix_append before [action]).trans hinit)
        hrun)
  · intro hok before state hinit hrun
    exact hgood state
      (always_of_eachStep hstart hkeep hok before state hinit hrun)

/-- If, from a good state, the next state is good exactly when `ok` allowed
the step, then the runs all of whose states are good are exactly the runs
all of whose steps are allowed. -/
theorem always_iff_eachStep
    {good : State → Prop} {ok : State → Action → Prop} {start : State}
    (hstart : good start)
    (hexact : ∀ state action next, step state action = some next →
      good state → (good next ↔ ok state action))
    (actions : List Action) :
    Always step good start actions ↔ EachStep step ok start actions :=
  always_iff_eachStep_of_inv hstart (fun _ hgood => hgood)
    (fun state action next hstep hgood hallowed =>
      (hexact state action next hstep hgood).mpr hallowed)
    (fun state action next hstep hgood hnext =>
      (hexact state action next hstep hgood).mp hnext) actions

/-! ## Logs

A log lists the events of a run, newest first.  What was recorded before an
event is then the part of the log behind it. -/

section Logs

variable {Event : Type*}

def Justified (why : List Event → Event → Prop) (log : List Event) : Prop :=
  ∀ event older, event :: older <:+ log → why older event

variable {why : List Event → Event → Prop}

theorem justified_nil : Justified why [] := by
  intro event older hsuffix
  simp at hsuffix

theorem justified_cons {event : Event} {log : List Event} :
    Justified why (event :: log) ↔ why log event ∧ Justified why log := by
  constructor
  · intro hlog
    have hevent : why log event := hlog event log (List.suffix_refl _)
    have hrest : Justified why log := by
      intro other older hsuffix
      exact hlog other older (hsuffix.trans (List.suffix_cons event log))
    exact ⟨hevent, hrest⟩
  · rintro ⟨hevent, hlog⟩ other older hsuffix
    rcases List.suffix_cons_iff.mp hsuffix with heq | hsuffix
    · cases heq
      exact hevent
    · exact hlog other older hsuffix

theorem Justified.append {log newer : List Event} (hlog : Justified why log)
    (hnewer : ∀ event ∈ newer, ∀ older, why older event) :
    Justified why (newer ++ log) := by
  induction newer with
  | nil => exact hlog
  | cons event rest ih =>
      have hevent : why (rest ++ log) event :=
        hnewer event List.mem_cons_self _
      have hrest : Justified why (rest ++ log) := by
        apply ih
        intro other hother
        exact hnewer other (List.mem_cons_of_mem event hother)
      exact justified_cons.mpr ⟨hevent, hrest⟩

end Logs

end MuduoChat.Runs
