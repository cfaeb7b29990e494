import MuduoChat.ChatServerSteps

/-!
# Where the server's work comes from

Tasks, half-run programs and waiting functors are scattered over the queue,
the workers and the loops.  `Accounted` ties all of them to the record of the
run: each stems from a reception, was asked for under the login the connection
had at that moment, and has made only the calls the record shows.  The login
of a connection is itself read off the record, as its latest authentication
event, and agrees with the context the server looks at.

The invariant holds in every reachable state.  What it says about single
events is drawn in `Attribution`.
-/

namespace MuduoChat

/-! ## Logins in the record -/

/-- The uid `conn` is logged in as according to the latest authentication
event on it. -/
def loginOf (conn : Conn) : List Event → Option String
  | [] => none
  | .loggedIn _ other result :: older =>
      if other = conn then some result.userInfo.uid else loginOf conn older
  | .loggedOut _ other :: older =>
      if other = conn then none else loginOf conn older
  | _ :: older => loginOf conn older

theorem loginOf_replies {conn : Conn} {replies older : List Event}
    (hreplies : ∀ event ∈ replies, event.IsReply) :
    loginOf conn (replies ++ older) = loginOf conn older := by
  refine skips_replies (fun event older hevent => ?_) hreplies older
  cases event with
  | sent target msg => rfl
  | shutdown target => rfl
  | _ => exact False.elim hevent

namespace SessionManager

theorem loggedInUid_of_getContext {manager next : SessionManager}
    {conn : Conn}
    (hcontext : next.getContext conn = manager.getContext conn) :
    next.loggedInUid conn = manager.loggedInUid conn := by
  unfold loggedInUid isAuthenticated getUid
  rw [hcontext]

theorem loggedInUid_of_conns {manager next : SessionManager}
    (hconns : next.conns = manager.conns) (conn : Conn) :
    next.loggedInUid conn = manager.loggedInUid conn :=
  loggedInUid_of_getContext (by rw [getContext, getContext, hconns])

theorem loggedInUid_authenticate
    (manager : SessionManager) (conn other : Conn) (uid token : String) :
    (manager.authenticate conn uid token).loggedInUid other =
      if conn = other then some uid else manager.loggedInUid other := by
  by_cases heq : other = conn
  · subst other
    simp [loggedInUid, isAuthenticated, getUid]
  · rw [if_neg (Ne.symm heq)]
    exact loggedInUid_of_getContext (by simp [heq])

theorem loggedInUid_deauthenticate
    (manager : SessionManager) (conn other : Conn) :
    (manager.deauthenticate conn).loggedInUid other =
      if conn = other then none else manager.loggedInUid other := by
  by_cases heq : other = conn
  · subst other
    simp [loggedInUid, isAuthenticated]
  · rw [if_neg (Ne.symm heq)]
    exact loggedInUid_of_getContext (by simp [heq])

end SessionManager

namespace ChatServer

/-! ## Causes -/

/-- `task` was asked for by an envelope received as `request`, or it follows
up on a callback. -/
def Caused (log : List Event) (request : Nat) (task : Task) : Prop :=
  task.IsFollowUp ∨ ∃ conn envelope older,
    .received request conn envelope :: older <:+ log ∧
      Requests (loginOf conn older) conn envelope task

/-- A task of `request` has come as far as `prog`, by calls that are on
record. -/
def Progressed (config : ServerConfig) (log : List Event) (request : Nat)
    (prog : ServiceProg (Option Callback)) : Prop :=
  ∃ task calls, Caused log request task ∧
    Prog.Reaches (task.program config.nodeId) calls prog ∧
      ∀ entry ∈ calls, .called request entry.1 entry.2 ∈ log

/-- What the record must hold before an event can occur. -/
def Explained (config : ServerConfig) (older : List Event) : Event → Prop
  | .received request _ _ =>
      ∀ conn envelope, .received request conn envelope ∉ older
  | .started request task => Caused older request task
  | .called request call _ =>
      ∃ next, Progressed config older request (.call call next)
  | .loggedIn request conn result =>
      ∃ callback token, entry callback = some (conn, result, token) ∧
        Progressed config older request (.ret (some callback))
  | _ => True

section Monotonicity

variable {config : ServerConfig} {log longer : List Event} {request : Nat}

theorem Caused.mono {task : Task} (hcaused : Caused log request task)
    (hsuffix : log <:+ longer) : Caused longer request task := by
  rcases hcaused with hfollow | ⟨conn, envelope, older, holder, hrequests⟩
  · exact .inl hfollow
  · exact .inr ⟨conn, envelope, older, holder.trans hsuffix, hrequests⟩

theorem Progressed.mono {prog : ServiceProg (Option Callback)}
    (hprogressed : Progressed config log request prog)
    (hsuffix : log <:+ longer) : Progressed config longer request prog := by
  obtain ⟨task, calls, hcaused, hreaches, hcalls⟩ := hprogressed
  refine ⟨task, calls, hcaused.mono hsuffix, hreaches, ?_⟩
  intro entry hentry
  exact hsuffix.subset (hcalls entry hentry)

theorem Caused.progressed {task : Task} (hcaused : Caused log request task) :
    Progressed config log request (task.program config.nodeId) :=
  ⟨task, [], hcaused, .refl _, by simp⟩

theorem Progressed.call {call : RepositoryCall}
    {next : call.Answer → ServiceProg (Option Callback)}
    (hprogressed : Progressed config log request (.call call next))
    (answer : call.Answer) :
    Progressed config (.called request call answer :: log) request
      (next answer) := by
  obtain ⟨task, calls, hcaused, hreaches, hcalls⟩ := hprogressed
  refine ⟨task, calls ++ [⟨call, answer⟩],
    hcaused.mono (List.suffix_cons _ _), hreaches.snoc answer, ?_⟩
  intro entry hentry
  rcases List.mem_append.mp hentry with hmem | hmem
  · exact List.mem_cons_of_mem _ (hcalls entry hmem)
  · rw [List.mem_singleton] at hmem
    subst hmem
    exact List.mem_cons_self

theorem explained_of_isReply {event : Event} (hreply : event.IsReply)
    (older : List Event) : Explained config older event := by
  cases event with
  | sent conn msg => trivial
  | shutdown conn => trivial
  | _ => exact False.elim hreply

end Monotonicity

/-! ## The invariant -/

structure Accounted (config : ServerConfig) (server : ChatServer) :
    Prop where
  logins : ∀ conn,
    server.sessions.loggedInUid conn = loginOf conn server.history
  numbered : ∀ request conn envelope,
    .received request conn envelope ∈ server.history →
      request < server.requests
  queue : ∀ item ∈ server.queue,
    Caused server.history item.request item.task
  workers : ∀ worker ∈ server.workers,
    Progressed config server.history worker.request worker.prog
  loops : ∀ loop, ∀ functor ∈ server.loops loop,
    Progressed config server.history functor.request
      (.ret (some functor.callback))
  events : Runs.Justified (Explained config) server.history

theorem initial_accounted (config : ServerConfig) :
    Accounted config initial where
  logins := fun _ => rfl
  numbered := by simp [initial]
  queue := by simp [initial]
  workers := by simp [initial]
  loops := by simp [initial]
  events := Runs.justified_nil

section Preservation

variable {config : ServerConfig} {server next : ChatServer}

theorem Accounted.push (haccounted : Accounted config server) {event : Event}
    (hhistory : next.history = event :: server.history)
    (hexplained : Explained config server.history event)
    (hlogins : ∀ conn, next.sessions.loggedInUid conn =
      loginOf conn (event :: server.history))
    (hrequests : server.requests ≤ next.requests)
    (hnumbered : ∀ request conn envelope,
      event = .received request conn envelope → request < next.requests)
    (hqueue : ∀ item ∈ next.queue, item ∈ server.queue)
    (hworkers : ∀ worker ∈ next.workers, worker ∈ server.workers ∨
      Progressed config (event :: server.history) worker.request
        worker.prog)
    (hloops : next.loops = server.loops) :
    Accounted config next where
  logins := by
    intro conn
    rw [hhistory]
    exact hlogins conn
  numbered := by
    intro request conn envelope hmem
    rw [hhistory] at hmem
    rcases List.mem_cons.mp hmem with heq | hmem
    · exact hnumbered request conn envelope heq.symm
    · exact (haccounted.numbered request conn envelope hmem).trans_le
        hrequests
  queue := by
    intro item hitem
    rw [hhistory]
    exact (haccounted.queue item (hqueue item hitem)).mono
      (List.suffix_cons _ _)
  workers := by
    intro worker hworker
    rw [hhistory]
    rcases hworkers worker hworker with hold | hnew
    · exact (haccounted.workers worker hold).mono (List.suffix_cons _ _)
    · exact hnew
  loops := by
    intro loop functor hfunctor
    rw [hhistory]
    rw [hloops] at hfunctor
    exact (haccounted.loops loop functor hfunctor).mono
      (List.suffix_cons _ _)
  events := by
    rw [hhistory]
    exact Runs.justified_cons.mpr ⟨hexplained, haccounted.events⟩

theorem Accounted.responds (haccounted : Accounted config server)
    {request : Nat} {allowed : Task → Prop}
    (hresponds : Responds request allowed server next)
    (hallowed : ∀ task, allowed task →
      Caused server.history request task) :
    Accounted config next := by
  obtain ⟨replies, hhistory, hreplies⟩ := hresponds.history
  obtain ⟨tasks, hqueue, htasks⟩ := hresponds.queue
  have hsuffix : server.history <:+ next.history := ⟨replies, hhistory.symm⟩
  constructor
  · intro conn
    rw [SessionManager.loggedInUid_of_conns hresponds.conns, hhistory,
      loginOf_replies hreplies]
    exact haccounted.logins conn
  · intro number conn envelope hmem
    rw [hresponds.requests]
    rw [hhistory] at hmem
    rcases List.mem_append.mp hmem with hmem | hmem
    · exact False.elim (hreplies _ hmem)
    · exact haccounted.numbered number conn envelope hmem
  · intro item hitem
    rw [hqueue] at hitem
    rcases List.mem_append.mp hitem with hmem | hmem
    · exact (haccounted.queue item hmem).mono hsuffix
    · obtain ⟨task, htask, rfl⟩ := List.mem_map.mp hmem
      exact (hallowed task (htasks task htask)).mono hsuffix
  · intro worker hworker
    rw [hresponds.workers] at hworker
    exact (haccounted.workers worker hworker).mono hsuffix
  · intro loop functor hfunctor
    rw [hresponds.loops] at hfunctor
    exact (haccounted.loops loop functor hfunctor).mono hsuffix
  · rw [hhistory]
    exact haccounted.events.append
      fun event hevent => explained_of_isReply (hreplies event hevent)

/-! ### Receptions -/

theorem Accounted.arrived (haccounted : Accounted config server)
    (conn : Conn) (envelope : Envelope) :
    Accounted config (server.arrived conn envelope) := by
  have hexplained : Explained config server.history
      (.received server.requests conn envelope) := by
    intro conn' envelope' hmem
    have hlt := haccounted.numbered _ _ _ hmem
    exact absurd hlt (lt_irrefl _)
  have hnumbered : ∀ request conn' envelope',
      Event.received server.requests conn envelope =
        .received request conn' envelope' →
          request < server.requests + 1 := by
    intro request conn' envelope' heq
    cases heq
    exact Nat.lt_succ_self _
  exact haccounted.push rfl hexplained haccounted.logins (Nat.le_succ _)
    hnumbered (fun _ hitem => hitem) (fun _ hworker => .inl hworker) rfl

theorem Accounted.leave (haccounted : Accounted config server)
    (request : Nat) (conn : Conn) (envelope : Envelope) :
    Accounted config (server.leave request conn envelope) := by
  cases envelope with
  | logoutReq req =>
      have hlogins (other : Conn) :
          (server.sessions.deauthenticate conn).loggedInUid other =
            loginOf other (.loggedOut request conn :: server.history) := by
        rw [SessionManager.loggedInUid_deauthenticate,
          haccounted.logins other, loginOf]
      exact haccounted.push rfl trivial hlogins le_rfl (by simp)
        (fun _ hitem => hitem) (fun _ hworker => .inl hworker) rfl
  | _ => exact haccounted

theorem leave_history_suffix (server : ChatServer) (request : Nat)
    (conn : Conn) (envelope : Envelope) :
    server.history <:+ (server.leave request conn envelope).history := by
  cases envelope with
  | logoutReq req => exact List.suffix_cons _ _
  | _ => exact List.suffix_refl _

theorem Accounted.receive (haccounted : Accounted config server)
    (conn : Conn) (envelope : Envelope) :
    Accounted config (server.receive conn envelope) := by
  have hleft : Accounted config
      ((server.arrived conn envelope).leave server.requests conn envelope) :=
    (haccounted.arrived conn envelope).leave _ conn envelope
  have hrecorded : .received server.requests conn envelope ::
      server.history <:+
        ((server.arrived conn envelope).leave server.requests conn
          envelope).history :=
    leave_history_suffix (server.arrived conn envelope) _ conn envelope
  apply hleft.responds (responds_receive server conn envelope)
  intro task hrequests
  rw [haccounted.logins conn] at hrequests
  exact .inr ⟨conn, envelope, server.history, hrecorded, hrequests⟩

/-! ### Pool and loops -/

theorem Accounted.start (haccounted : Accounted config server)
    {request : Nat} {task : Task} {rest : List PoolTask}
    (hqueue : server.queue = ⟨request, task⟩ :: rest) :
    Accounted config
      { server with
        queue := rest
        workers := server.workers ++
          [⟨request, task, task.program config.nodeId⟩]
        history := .started request task :: server.history } := by
  have hcaused : Caused server.history request task :=
    haccounted.queue ⟨request, task⟩ (by simp [hqueue])
  have hrest : ∀ item ∈ rest, item ∈ server.queue := by
    intro item hitem
    rw [hqueue]
    exact List.mem_cons_of_mem _ hitem
  have hworkers : ∀ worker ∈ server.workers ++
      [⟨request, task, task.program config.nodeId⟩],
      worker ∈ server.workers ∨ Progressed config
        (.started request task :: server.history) worker.request
        worker.prog := by
    intro worker hworker
    rcases List.mem_append.mp hworker with hmem | hmem
    · exact .inl hmem
    · rw [List.mem_singleton] at hmem
      subst hmem
      exact .inr (hcaused.progressed.mono (List.suffix_cons _ _))
  exact haccounted.push rfl hcaused haccounted.logins le_rfl (by simp) hrest
    hworkers rfl

theorem Accounted.call (haccounted : Accounted config server)
    {index : Nat} {worker : Worker} {call : RepositoryCall}
    {rest : call.Answer → ServiceProg (Option Callback)}
    (hworker : server.workers[index]? = some worker)
    (hprog : worker.prog = .call call rest) (answer : call.Answer) :
    Accounted config
      { server with
        workers := server.workers.set index
          { worker with prog := rest answer }
        history :=
          .called worker.request call answer :: server.history } := by
  have hprogressed : Progressed config server.history worker.request
      (.call call rest) :=
    hprog ▸ haccounted.workers worker (List.mem_of_getElem? hworker)
  have hworkers : ∀ other ∈ server.workers.set index
      { worker with prog := rest answer },
      other ∈ server.workers ∨ Progressed config
        (.called worker.request call answer :: server.history)
        other.request other.prog := by
    intro other hother
    rcases List.mem_or_eq_of_mem_set hother with hmem | heq
    · exact .inl hmem
    · subst heq
      exact .inr (hprogressed.call answer)
  exact haccounted.push rfl ⟨rest, hprogressed⟩ haccounted.logins le_rfl
    (by simp) (fun _ hitem => hitem) hworkers rfl

theorem Accounted.finish (haccounted : Accounted config server)
    {index request : Nat} {task : Task} {callback : Option Callback}
    (hworker : server.workers[index]? =
      some ⟨request, task, .ret callback⟩) :
    Accounted config
      (queueInLoop config
        { server with workers := server.workers.eraseIdx index }
        request callback) := by
  have hprogressed :=
    haccounted.workers _ (List.mem_of_getElem? hworker)
  have hworkers : ∀ worker ∈ server.workers.eraseIdx index,
      Progressed config server.history worker.request worker.prog :=
    fun worker hmem =>
      haccounted.workers worker (List.mem_of_mem_eraseIdx hmem)
  cases callback with
  | none => exact { haccounted with workers := hworkers }
  | some callback =>
      refine { haccounted with workers := hworkers, loops := ?_ }
      intro loop functor hfunctor
      simp only [queueInLoop, Function.update_apply] at hfunctor
      split_ifs at hfunctor with heq
      · rcases List.mem_append.mp hfunctor with hmem | hmem
        · exact haccounted.loops _ functor hmem
        · rw [List.mem_singleton] at hmem
          subst hmem
          exact hprogressed
      · exact haccounted.loops loop functor hfunctor

theorem Accounted.enter (haccounted : Accounted config server)
    {request : Nat} {callback : Callback}
    (hprogressed : Progressed config server.history request
      (.ret (some callback))) :
    Accounted config (server.enter request (entry callback)) := by
  cases hentry : entry callback with
  | none => exact haccounted
  | some login =>
      obtain ⟨conn, result, token⟩ := login
      have hlogins (other : Conn) :
          (server.sessions.authenticate conn result.userInfo.uid
            token).loggedInUid other =
              loginOf other
                (.loggedIn request conn result :: server.history) := by
        rw [SessionManager.loggedInUid_authenticate,
          haccounted.logins other, loginOf]
      exact haccounted.push rfl ⟨callback, token, hentry, hprogressed⟩
        hlogins le_rfl (by simp) (fun _ hitem => hitem)
        (fun _ hworker => .inl hworker) rfl

theorem Accounted.callback (haccounted : Accounted config server)
    {loop request now : Nat} {callback : Callback} {rest : List Functor}
    (hloop : server.loops loop = ⟨request, callback⟩ :: rest) :
    Accounted config
      (runCallback
        { server with loops := Function.update server.loops loop rest }
        request now callback) := by
  have hprogressed : Progressed config server.history request
      (.ret (some callback)) :=
    haccounted.loops loop ⟨request, callback⟩ (by simp [hloop])
  have htaken : Accounted config
      { server with loops := Function.update server.loops loop rest } := by
    refine { haccounted with loops := ?_ }
    intro other functor hfunctor
    simp only [Function.update_apply] at hfunctor
    split_ifs at hfunctor with heq
    · exact haccounted.loops loop functor (by simp [hloop, hfunctor])
    · exact haccounted.loops other functor hfunctor
  apply (htaken.enter hprogressed).responds
    (responds_runCallback _ now callback)
  intro task hfollow
  exact .inl hfollow

theorem Accounted.close (haccounted : Accounted config server)
    (conn : Conn) : Accounted config (server.close conn) := by
  have hlogins (other : Conn) :
      (server.close conn).sessions.loggedInUid other =
        loginOf other server.history := by
    have hcontext : (server.close conn).sessions.getContext other =
        server.sessions.getContext other :=
      (SessionManager.getContext_onDisconnection _ conn other).trans
        (SessionManager.getContext_setDisconnected _ conn other)
    rw [SessionManager.loggedInUid_of_getContext hcontext]
    exact haccounted.logins other
  exact haccounted.push rfl trivial hlogins le_rfl (by simp)
    (fun _ hitem => hitem) (fun _ hworker => .inl hworker) rfl

theorem Accounted.step {action : Action}
    (haccounted : Accounted config server)
    (hstep : step config server action = some next) :
    Accounted config next := by
  cases steps_of_step hstep with
  | receive conn envelope => exact haccounted.receive conn envelope
  | invalidLength conn =>
      have hresponds : Responds 0 (fun _ => False) server
          (server.record (.shutdown conn)) := responds_record server trivial
      exact haccounted.responds hresponds (fun _ hfalse => hfalse.elim)
  | parseError conn =>
      have hresponds : Responds 0 (fun _ => False) server
          (server.sendError conn 1 "parse error") :=
        responds_sendError server conn 1 _
      exact haccounted.responds hresponds (fun _ hfalse => hfalse.elim)
  | close conn => exact haccounted.close conn
  | start request task rest hqueue => exact haccounted.start hqueue
  | call index worker call rest answer hworker hprog =>
      exact haccounted.call hworker hprog answer
  | finish index request task callback hworker =>
      exact haccounted.finish hworker
  | callback loop now request callback rest hloop =>
      exact haccounted.callback hloop

end Preservation

theorem accounted_of_run {config : ServerConfig} {actions : List Action}
    {server : ChatServer}
    (hrun : Runs.runFrom (step config) initial actions = some server) :
    Accounted config server :=
  Runs.invariant_of_run (initial_accounted config)
    (fun _ _ _ hstep haccounted => haccounted.step hstep) hrun

end ChatServer

end MuduoChat
