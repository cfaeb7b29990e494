import Mathlib.Tactic.SplitIfs

/-!
# Programs that call an environment

A program is a tree: it has returned a value, or it makes a call and goes on
according to the answer.  The environment is left open, so that the same
program can be run against a fixed state, be interleaved with other programs
call by call, or be analysed for all answers at once.

`Reaches` relates a program to what is left of it after a log of calls and
answers.  `Ensures` specifies what a program returns and `Issues` what it
calls; their simp lemmas reduce them along the program text.
-/

namespace MuduoChat

inductive Prog (Call : Type) (Answer : Call → Type) (α : Type) where
  | ret (value : α)
  | call (request : Call) (next : Answer request → Prog Call Answer α)

namespace Prog

variable {Call : Type} {Answer : Call → Type} {α β : Type}

protected def bind (prog : Prog Call Answer α)
    (next : α → Prog Call Answer β) : Prog Call Answer β :=
  match prog with
  | .ret value => next value
  | .call request rest =>
      .call request fun answer => (rest answer).bind next

instance : Monad (Prog Call Answer) where
  pure := .ret
  bind := Prog.bind

def request (call : Call) : Prog Call Answer (Answer call) :=
  .call call .ret

@[simp] theorem pure_eq (value : α) :
    (pure value : Prog Call Answer α) = .ret value := rfl

@[simp] theorem ret_bind (value : α) (next : α → Prog Call Answer β) :
    ((.ret value : Prog Call Answer α) >>= next) = next value := rfl

@[simp] theorem call_bind (call : Call)
    (rest : Answer call → Prog Call Answer α)
    (next : α → Prog Call Answer β) :
    ((.call call rest : Prog Call Answer α) >>= next) =
      .call call fun answer => rest answer >>= next := rfl

@[simp] theorem request_bind (call : Call)
    (next : Answer call → Prog Call Answer β) :
    (request call >>= next) = .call call next := rfl

def resume [DecidableEq Call] :
    Prog Call Answer α → (made : Call) → Answer made →
      Option (Prog Call Answer α)
  | .ret _, _, _ => none
  | .call pending next, made, answer =>
      if h : made = pending then some (next (h ▸ answer)) else none

theorem resume_eq_some [DecidableEq Call]
    {prog rest : Prog Call Answer α} {call : Call} {answer : Answer call}
    (hresume : prog.resume call answer = some rest) :
    ∃ next, prog = .call call next ∧ rest = next answer := by
  cases prog with
  | ret value => simp [resume] at hresume
  | call pending next =>
      simp only [resume] at hresume
      split_ifs at hresume with heq
      subst heq
      cases hresume
      exact ⟨next, rfl, rfl⟩

/-- Replace every call by a program that answers it. -/
def translate {Inner : Type} {InnerAnswer : Inner → Type}
    (answered : (call : Call) → Prog Inner InnerAnswer (Answer call)) :
    Prog Call Answer α → Prog Inner InnerAnswer α
  | .ret value => .ret value
  | .call request next =>
      answered request >>= fun answer => (next answer).translate answered

theorem bind_assoc {γ : Type} (prog : Prog Call Answer α)
    (first : α → Prog Call Answer β) (second : β → Prog Call Answer γ) :
    prog >>= first >>= second =
      prog >>= fun value => first value >>= second := by
  induction prog with
  | ret value => rfl
  | call request rest ih => exact congrArg (Prog.call request) (funext ih)

theorem translate_bind {Inner : Type} {InnerAnswer : Inner → Type}
    (answered : (call : Call) → Prog Inner InnerAnswer (Answer call))
    (prog : Prog Call Answer α) (next : α → Prog Call Answer β) :
    (prog >>= next).translate answered =
      prog.translate answered >>= fun value =>
        (next value).translate answered := by
  induction prog with
  | ret value => rfl
  | call request rest ih =>
      simp only [call_bind, translate, ih]
      exact (bind_assoc _ _ _).symm

theorem translate_request_bind {Inner : Type} {InnerAnswer : Inner → Type}
    (answered : (call : Call) → Prog Inner InnerAnswer (Answer call))
    (call : Call) (next : Answer call → Prog Call Answer β) :
    (request call >>= next).translate answered =
      answered call >>= fun answer => (next answer).translate answered := rfl

/-! ## Runs against a state -/

section Run

variable {State : Type}

def run (exec : State → (call : Call) → State × Answer call) :
    State → Prog Call Answer α → State × α
  | state, .ret value => (state, value)
  | state, .call request next =>
      run exec (exec state request).1 (next (exec state request).2)

variable (exec : State → (call : Call) → State × Answer call)

@[simp] theorem run_ret (state : State) (value : α) :
    run exec state (.ret value : Prog Call Answer α) = (state, value) := rfl

@[simp] theorem run_call (state : State) (request : Call)
    (next : Answer request → Prog Call Answer α) :
    run exec state (.call request next) =
      run exec (exec state request).1 (next (exec state request).2) := rfl

@[simp] theorem run_bind (state : State) (prog : Prog Call Answer α)
    (next : α → Prog Call Answer β) :
    run exec state (prog >>= next) =
      run exec (run exec state prog).1 (next (run exec state prog).2) := by
  induction prog generalizing state with
  | ret value => rfl
  | call request rest ih => exact ih _ _

end Run

/-! ## Logs -/

/-- After the calls and answers of `log`, `rest` remains of `prog`. -/
inductive Reaches :
    Prog Call Answer α → List (Sigma Answer) → Prog Call Answer α → Prop
  | refl (prog : Prog Call Answer α) : Reaches prog [] prog
  | step {request : Call} {next : Answer request → Prog Call Answer α}
      {answer : Answer request} {log : List (Sigma Answer)}
      {rest : Prog Call Answer α} :
      Reaches (next answer) log rest →
        Reaches (.call request next) (⟨request, answer⟩ :: log) rest

theorem reaches_nil {prog rest : Prog Call Answer α} :
    Reaches prog [] rest ↔ rest = prog := by
  constructor
  · intro hreaches
    cases hreaches
    rfl
  · rintro rfl
    exact .refl _

theorem reaches_call {request : Call}
    {next : Answer request → Prog Call Answer α} {answer : Answer request}
    {log : List (Sigma Answer)} {rest : Prog Call Answer α} :
    Reaches (.call request next) (⟨request, answer⟩ :: log) rest ↔
      Reaches (next answer) log rest := by
  constructor
  · intro hreaches
    cases hreaches with
    | step hrest => exact hrest
  · exact .step

theorem Reaches.snoc {prog : Prog Call Answer α}
    {log : List (Sigma Answer)} {call : Call}
    {next : Answer call → Prog Call Answer α}
    (hreaches : Reaches prog log (.call call next)) (answer : Answer call) :
    Reaches prog (log ++ [⟨call, answer⟩]) (next answer) := by
  generalize hrest : Prog.call call next = rest at hreaches
  induction hreaches with
  | refl prog =>
      subst hrest
      exact .step (.refl _)
  | step _ ih => exact .step (ih hrest)

theorem Reaches.bind {prog : Prog Call Answer α}
    {log : List (Sigma Answer)} {value : α}
    (hreaches : Reaches prog log (.ret value))
    (next : α → Prog Call Answer β) :
    Reaches (prog >>= next) log (next value) := by
  generalize hrest : (.ret value : Prog Call Answer α) = rest at hreaches
  induction hreaches with
  | refl prog =>
      subst hrest
      exact .refl _
  | step _ ih => exact .step (ih hrest)

theorem Reaches.bind_ret {prog : Prog Call Answer α}
    {next : α → Prog Call Answer β} {log : List (Sigma Answer)} {value : β}
    (hreaches : Reaches (prog >>= next) log (.ret value)) :
    ∃ middle first second, log = first ++ second ∧
      Reaches prog first (.ret middle) ∧
        Reaches (next middle) second (.ret value) := by
  induction prog generalizing log with
  | ret middle => exact ⟨middle, [], log, rfl, .refl _, hreaches⟩
  | call request rest ih =>
      cases hreaches with
      | step hrest =>
          obtain ⟨middle, first, second, hlog, hfirst, hsecond⟩ := ih _ hrest
          exact ⟨middle, _ :: first, second, congrArg (List.cons _) hlog,
            .step hfirst, hsecond⟩

/-- Whenever the program returns, `post` holds of its log and its value. -/
def Ensures (prog : Prog Call Answer α)
    (post : List (Sigma Answer) → α → Prop) : Prop :=
  ∀ log value, Reaches prog log (.ret value) → post log value

@[simp] theorem ensures_ret
    {post : List (Sigma Answer) → α → Prop} {value : α} :
    Ensures (.ret value : Prog Call Answer α) post ↔ post [] value := by
  constructor
  · intro hensures
    exact hensures [] value (.refl _)
  · intro hpost log other hreaches
    cases hreaches
    exact hpost

@[simp] theorem ensures_call
    {post : List (Sigma Answer) → α → Prop} {call : Call}
    {next : Answer call → Prog Call Answer α} :
    Ensures (.call call next) post ↔
      ∀ answer, Ensures (next answer)
        fun log => post (⟨call, answer⟩ :: log) := by
  constructor
  · intro hensures answer log value hreaches
    exact hensures _ value (.step hreaches)
  · intro hensures log value hreaches
    cases hreaches with
    | step hrest => exact hensures _ _ value hrest

theorem Ensures.bind {prog : Prog Call Answer α}
    {next : α → Prog Call Answer β}
    {middle : List (Sigma Answer) → α → Prop}
    {post : List (Sigma Answer) → β → Prop}
    (hprog : Ensures prog middle)
    (hnext : ∀ log value, middle log value →
      Ensures (next value) fun rest => post (log ++ rest)) :
    Ensures (prog >>= next) post := by
  intro log value hreaches
  obtain ⟨between, first, second, rfl, hfirst, hsecond⟩ := hreaches.bind_ret
  exact hnext first between (hprog first between hfirst) second value hsecond

/-- Whenever the program makes a call, `pre` holds of its log and the
call. -/
def Issues (prog : Prog Call Answer α)
    (pre : List (Sigma Answer) → Call → Prop) : Prop :=
  ∀ log call next, Reaches prog log (.call call next) → pre log call

@[simp] theorem issues_ret {pre : List (Sigma Answer) → Call → Prop}
    {value : α} : Issues (.ret value : Prog Call Answer α) pre := by
  intro log call next hreaches
  cases hreaches

@[simp] theorem issues_call {pre : List (Sigma Answer) → Call → Prop}
    {call : Call} {next : Answer call → Prog Call Answer α} :
    Issues (.call call next) pre ↔
      pre [] call ∧ ∀ answer, Issues (next answer)
        fun log => pre (⟨call, answer⟩ :: log) := by
  constructor
  · intro hissues
    have hcall : pre [] call := hissues [] call next (.refl _)
    have hnext (answer : Answer call) :
        Issues (next answer) fun log => pre (⟨call, answer⟩ :: log) := by
      intro log other rest hreaches
      exact hissues _ other rest (.step hreaches)
    exact ⟨hcall, hnext⟩
  · rintro ⟨hcall, hnext⟩ log other rest hreaches
    cases hreaches with
    | refl => exact hcall
    | step hrest => exact hnext _ _ other rest hrest

theorem Issues.bind {prog : Prog Call Answer α}
    {next : α → Prog Call Answer β}
    {pre : List (Sigma Answer) → Call → Prop}
    {middle : List (Sigma Answer) → α → Prop}
    (hprog : Issues prog pre) (hdone : Ensures prog middle)
    (hnext : ∀ log value, middle log value →
      Issues (next value) fun rest => pre (log ++ rest)) :
    Issues (prog >>= next) pre := by
  induction prog generalizing pre middle with
  | ret value => exact hnext [] value (ensures_ret.mp hdone)
  | call request rest ih =>
      obtain ⟨hrequest, hrest⟩ := issues_call.mp hprog
      refine issues_call.mpr ⟨hrequest, fun answer => ?_⟩
      exact ih answer (hrest answer) (ensures_call.mp hdone answer)
        fun log value hvalue => hnext (⟨request, answer⟩ :: log) value hvalue

def OnlyCalls (prog : Prog Call Answer α) (allowed : Call → Prop) : Prop :=
  Issues prog fun _ call => allowed call

@[simp] theorem onlyCalls_ret {allowed : Call → Prop} {value : α} :
    OnlyCalls (.ret value : Prog Call Answer α) allowed :=
  issues_ret

@[simp] theorem onlyCalls_call {allowed : Call → Prop} {call : Call}
    {next : Answer call → Prog Call Answer α} :
    OnlyCalls (.call call next) allowed ↔
      allowed call ∧ ∀ answer, OnlyCalls (next answer) allowed :=
  issues_call

theorem OnlyCalls.mono {allowed wider : Call → Prop}
    {prog : Prog Call Answer α} (hprog : OnlyCalls prog allowed)
    (hwider : ∀ call, allowed call → wider call) : OnlyCalls prog wider := by
  intro log call next hreaches
  exact hwider call (hprog log call next hreaches)

theorem OnlyCalls.of_mem_log {allowed : Call → Prop}
    {prog rest : Prog Call Answer α} {log : List (Sigma Answer)}
    (hprog : OnlyCalls prog allowed) (hreaches : Reaches prog log rest) :
    ∀ entry ∈ log, allowed entry.1 := by
  induction hreaches with
  | refl prog => simp
  | step _ ih =>
      obtain ⟨hcall, hnext⟩ := onlyCalls_call.mp hprog
      intro entry hentry
      rcases List.mem_cons.mp hentry with rfl | hmem
      · exact hcall
      · exact ih (hnext _) entry hmem

theorem OnlyCalls.bind {allowed : Call → Prop} {prog : Prog Call Answer α}
    {next : α → Prog Call Answer β}
    (hprog : OnlyCalls prog allowed)
    (hnext : ∀ value, OnlyCalls (next value) allowed) :
    OnlyCalls (prog >>= next) allowed := by
  induction prog with
  | ret value => exact hnext value
  | call request rest ih =>
      obtain ⟨hrequest, hrest⟩ := onlyCalls_call.mp hprog
      exact onlyCalls_call.mpr
        ⟨hrequest, fun answer => ih answer (hrest answer)⟩

theorem OnlyCalls.translate {Inner : Type} {InnerAnswer : Inner → Type}
    {answer : (call : Call) → Prog Inner InnerAnswer (Answer call)}
    {outer : Call → Prop} {inner : Inner → Prop}
    (hanswer : ∀ call, outer call → OnlyCalls (answer call) inner)
    {prog : Prog Call Answer α} (hprog : OnlyCalls prog outer) :
    OnlyCalls (prog.translate answer) inner := by
  induction prog with
  | ret value => exact issues_ret
  | call request rest ih =>
      obtain ⟨hrequest, hrest⟩ := onlyCalls_call.mp hprog
      exact (hanswer request hrequest).bind
        fun reply => ih reply (hrest reply)

/-- What a translated program has done is what the calls of the original
program stand for, each with a part of the log of its own. -/
theorem Reaches.of_translate {Inner : Type} {InnerAnswer : Inner → Type}
    {answer : (call : Call) → Prog Inner InnerAnswer (Answer call)}
    {prog : Prog Call Answer α} {log : List (Sigma InnerAnswer)} {value : α}
    (hreaches : Reaches (prog.translate answer) log (.ret value)) :
    ∃ outer : List (Sigma Answer), Reaches prog outer (.ret value) ∧
      ∀ entry ∈ outer, ∃ part, part ⊆ log ∧
        Reaches (answer entry.1) part (.ret entry.2) := by
  induction prog generalizing log with
  | ret result =>
      cases hreaches
      exact ⟨[], .refl _, by simp⟩
  | call request rest ih =>
      obtain ⟨middle, first, second, rfl, hfirst, hsecond⟩ :=
        hreaches.bind_ret
      obtain ⟨outer, houter, hparts⟩ := ih middle hsecond
      refine ⟨⟨request, middle⟩ :: outer, .step houter, ?_⟩
      intro entry hentry
      rcases List.mem_cons.mp hentry with rfl | hmem
      · exact ⟨first, List.subset_append_left first second, hfirst⟩
      · obtain ⟨part, hpart, hpath⟩ := hparts entry hmem
        exact ⟨part, List.Subset.trans hpart
          (List.subset_append_right first second), hpath⟩

/-- A run keeps what each of the program's calls keeps. -/
theorem run_invariant {State : Type}
    {exec : State → (call : Call) → State × Answer call}
    {inv : State → Prop} {allowed : Call → Prop}
    (hexec : ∀ state call, allowed call → inv state →
      inv (exec state call).1)
    {prog : Prog Call Answer α} (hprog : OnlyCalls prog allowed)
    {state : State} (hstate : inv state) :
    inv (run exec state prog).1 := by
  induction prog generalizing state with
  | ret value => exact hstate
  | call request rest ih =>
      obtain ⟨hrequest, hrest⟩ := onlyCalls_call.mp hprog
      exact ih _ (hrest _) (hexec state request hrequest hstate)

/-! ## Programs that rely on their answers -/

/-- As long as it gets only answers that `expected` admits, the program makes
only calls that are allowed. -/
def Keeps (expected : (call : Call) → Answer call → Prop)
    (allowed : Call → Prop) : Prog Call Answer α → Prop
  | .ret _ => True
  | .call request next =>
      allowed request ∧ ∀ answer, expected request answer →
        Keeps expected allowed (next answer)

section Keeps

variable {expected : (call : Call) → Answer call → Prop}
  {allowed : Call → Prop}

@[simp] theorem keeps_ret {value : α} :
    Keeps expected allowed (.ret value : Prog Call Answer α) := trivial

@[simp] theorem keeps_call {request : Call}
    {next : Answer request → Prog Call Answer α} :
    Keeps expected allowed (.call request next) ↔
      allowed request ∧ ∀ answer, expected request answer →
        Keeps expected allowed (next answer) := Iff.rfl

end Keeps

/-- It holds of the program and of everything that can be left of it. -/
def Throughout (holds : Prog Call Answer α → Prop) :
    Prog Call Answer α → Prop
  | .ret value => holds (.ret value)
  | .call request next =>
      holds (.call request next) ∧
        ∀ answer, Throughout holds (next answer)

theorem Throughout.here {holds : Prog Call Answer α → Prop}
    {prog : Prog Call Answer α} (hprog : prog.Throughout holds) :
    holds prog := by
  cases prog with
  | ret value => exact hprog
  | call request next => exact hprog.1

end Prog

end MuduoChat
