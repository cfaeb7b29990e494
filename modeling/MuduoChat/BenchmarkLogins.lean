import MuduoChat.BenchmarkSlots
import MuduoChat.ChatServerSteps
import MuduoChat.LabelledRuns
import MuduoChat.RecallAudience
import Mathlib.Data.List.Chain

/-!
# Logins as the benchmark counts them

`loginWorker` reads one message for each request it sends, and the request
counts if this message accepts a login.  The server answers a login by more
than one message: the reply comes first, then the requests and messages that
wait for the user, then the list of friends.  All of them are sent in one
callback, so that no reply to a login follows another one at once.  The worker
falls behind its own requests and counts about half of them at most.
-/

namespace MuduoChat

/-! ## Lists without two hits in a row -/

theorem two_mul_countP_le {α : Type*} {hit : α → Bool} {items : List α}
    (happart : items.IsChain fun first second =>
      hit first = false ∨ hit second = false) :
    2 * items.countP hit ≤ items.length + 1 := by
  match items, happart with
  | [], _ => simp
  | [item], _ =>
      have hle : [item].countP hit ≤ 1 := List.countP_le_length
      simp only [List.length_singleton]
      omega
  | first :: second :: rest, happart =>
      obtain ⟨hpair, hrest⟩ := List.isChain_cons_cons.mp happart
      have htail := two_mul_countP_le hrest
      have hlast := two_mul_countP_le hrest.of_cons
      simp only [List.length_cons, List.countP_cons] at htail hlast ⊢
      rcases hpair with hfirst | hsecond
      · simp only [hfirst, Bool.false_eq_true, if_false]
        omega
      · simp only [hsecond, Bool.false_eq_true, if_false]
        split <;> omega

namespace Benchmark

/-! ## The loop of a worker -/

/-- The requests of `loginWorker`, for a number that is drawn. -/
def loginRequest (number : ℕ) : Envelope :=
  .loginReq { uid := "bench" ++ toString number, passwd := "bench123" }

/-- `GetLoginResp().GetOk()`. -/
def accepts : ServerMessage → Bool
  | .loginResp resp => resp.ok
  | _ => false

/-- One round for each request.  Nothing is read for a request that could not
be sent, and nothing can be read after the last message. -/
def exchanges : List (Option Latency) → List ServerMessage → List Exchange
  | [], _ => []
  | none :: attempts, incoming => .failed :: exchanges attempts incoming
  | some _ :: attempts, [] => .failed :: exchanges attempts []
  | some latency :: attempts, msg :: incoming =>
      .answered (accepts msg) latency :: exchanges attempts incoming

/-- What a worker adds to the common counter of successes. -/
def successCount (mode : Mode) (attempts : List (Option Latency))
    (incoming : List ServerMessage) : ℕ :=
  ((exchanges attempts incoming).filterMap mode.worker).length

theorem successCount_login_le (attempts : List (Option Latency))
    (incoming : List ServerMessage) :
    successCount .login attempts incoming ≤
      (incoming.take attempts.length).countP accepts := by
  unfold successCount
  fun_induction exchanges attempts incoming with
  | case1 => simp
  | case2 attempts incoming ih =>
      have htake : (incoming.take attempts.length).countP accepts ≤
          (incoming.take (attempts.length + 1)).countP accepts :=
        (List.take_sublist_take_left (Nat.le_succ attempts.length)).countP_le
      exact ih.trans htake
  | case3 latency attempts ih => exact ih.trans (by simp)
  | case4 latency attempts msg incoming ih =>
      rw [List.length_cons, List.take_succ_cons, List.countP_cons]
      cases accepts msg with
      | false => exact ih
      | true => exact Nat.succ_le_succ ih

/-- A worker that sees no two accepted logins in a row counts at most every
other request. -/
theorem successCount_login_half (attempts : List (Option Latency))
    {incoming : List ServerMessage}
    (happart : incoming.IsChain fun first second =>
      accepts first = false ∨ accepts second = false) :
    2 * successCount .login attempts incoming ≤ attempts.length + 1 := by
  have hread := successCount_login_le attempts incoming
  rw [← List.take_append_drop attempts.length incoming] at happart
  have hhalf := two_mul_countP_le happart.left_of_append
  have hlength := List.length_take_le attempts.length incoming
  omega

end Benchmark

/-! ## What the server sends -/

namespace ChatServer

open Benchmark

/-- The messages sent on a connection, the newest first. -/
def sentTo (conn : Conn) (log : List Event) : List ServerMessage :=
  log.filterMap fun event =>
    match event with
    | .sent other msg => if other = conn then some msg else none
    | _ => none

/-- The messages sent on a connection, in their order. -/
def messagesTo (server : ChatServer) (conn : Conn) : List ServerMessage :=
  (sentTo conn server.history).reverse

/-- What is sent on the connection in between accepts no login. -/
def Ordinary (conn : Conn) (before after : ChatServer) : Prop :=
  ∃ newer, sentTo conn after.history = newer ++ sentTo conn before.history ∧
    ∀ msg ∈ newer, accepts msg = false

section Ordinary

variable {conn : Conn} {before middle after : ChatServer}

theorem ordinary_of_eq (hhistory : after.history = before.history) :
    Ordinary conn before after :=
  ⟨[], by rw [hhistory, List.nil_append], by simp⟩

theorem Ordinary.trans (hfirst : Ordinary conn before middle)
    (hsecond : Ordinary conn middle after) : Ordinary conn before after := by
  obtain ⟨older, hmiddle, holder⟩ := hfirst
  obtain ⟨newer, hafter, hnewer⟩ := hsecond
  refine ⟨newer ++ older, ?_, ?_⟩
  · rw [hafter, hmiddle, List.append_assoc]
  · intro msg hmsg
    rcases List.mem_append.mp hmsg with hmem | hmem
    · exact hnewer msg hmem
    · exact holder msg hmem

theorem ordinary_record (server : ChatServer) {event : Event}
    (hevent : ∀ msg, event ≠ .sent conn msg) :
    Ordinary conn server (server.record event) := by
  refine ⟨[], ?_, by simp⟩
  cases event with
  | sent other msg =>
      have hother : other ≠ conn := by
        rintro rfl
        exact hevent msg rfl
      simp [record, sentTo, hother]
  | _ => rfl

theorem ordinary_send (server : ChatServer) {target : Conn}
    {msg : ServerMessage} (hmsg : target = conn → accepts msg = false) :
    Ordinary conn server (server.send target msg) := by
  by_cases htarget : target = conn
  · subst htarget
    exact ⟨[msg], by simp [send, record, sentTo], by simpa using hmsg rfl⟩
  · refine ordinary_record server ?_
    rintro other ⟨⟩
    exact htarget rfl

theorem ordinary_foldl {Item : Type} {act : ChatServer → Item → ChatServer}
    {items : List Item} (hact : ∀ server, ∀ item ∈ items,
      Ordinary conn server (act server item)) (server : ChatServer) :
    Ordinary conn server (items.foldl act server) := by
  induction items generalizing server with
  | nil => exact ordinary_of_eq rfl
  | cons item rest ih =>
      exact (hact server item List.mem_cons_self).trans
        (ih (fun next other hother =>
          hact next other (List.mem_cons_of_mem item hother)) _)

theorem ordinary_sendAll (server : ChatServer) {outgoing : List Outgoing}
    (houtgoing : ∀ out ∈ outgoing, accepts out.2 = false) :
    Ordinary conn server (server.sendAll outgoing) :=
  ordinary_foldl (fun next out hout =>
    ordinary_send next fun _ => houtgoing out hout) server

theorem ordinary_toUser {server : ChatServer} {uid : String}
    {msg : ServerMessage} (hmsg : accepts msg = false) :
    Ordinary conn server
      (server.sendAll (ServerReplies.toUser server.sessions uid msg)) := by
  refine ordinary_sendAll server fun out hout => ?_
  rw [(mem_toUser.mp hout).2]
  exact hmsg

theorem ordinary_toMembers {server : ChatServer}
    {members : OrderedSet String} {msg : ServerMessage}
    (hmsg : accepts msg = false) :
    Ordinary conn server (server.sendAll
      (ServerReplies.toMembers server.sessions members msg)) := by
  refine ordinary_sendAll server fun out hout => ?_
  rw [(mem_toMembers.mp hout).2]
  exact hmsg

theorem ordinary_sendError (server : ChatServer) (target : Conn) (code : ℕ)
    (reason : String) :
    Ordinary conn server (server.sendError target code reason) :=
  ordinary_send server fun _ => rfl

theorem ordinary_sendFriendList (server : ChatServer) (target : Conn) :
    Ordinary conn server (server.sendFriendList target) :=
  ordinary_send server fun _ => rfl

theorem ordinary_notifyWithFriends (server : ChatServer) (uid : String)
    {msg : ServerMessage} (hmsg : accepts msg = false) :
    Ordinary conn server (server.notifyWithFriends uid msg) := by
  unfold notifyWithFriends
  split
  · exact ordinary_of_eq rfl
  · exact (ordinary_send server fun _ => hmsg).trans
      (ordinary_sendFriendList _ _)

/-! ### Callbacks -/

theorem ordinary_sendPendingRequests (server : ChatServer) (target : Conn)
    (requests : List String) :
    Ordinary conn server (server.sendPendingRequests target requests) := by
  refine ordinary_foldl (fun next requester _ => ?_) server
  have hadded : Ordinary conn next (next.withSessions
      (next.sessions.addPendingRequest requester
        (server.sessions.getUid target))) := ordinary_of_eq rfl
  exact hadded.trans (ordinary_send _ fun _ => rfl)

theorem ordinary_sendOfflineMessages (server : ChatServer) (request : ℕ)
    (target : Conn) (messages : List MessageInfo) (now : ℕ) :
    Ordinary conn server
      (server.sendOfflineMessages request target messages now) := by
  have hpushed : Ordinary conn server (server.sendAll
      (messages.map fun info =>
        (target, ServerReplies.offlineChat info now))) := by
    refine ordinary_sendAll server fun out hout => ?_
    obtain ⟨info, -, rfl⟩ := List.mem_map.mp hout
    rfl
  unfold sendOfflineMessages
  dsimp only
  split
  · exact hpushed
  · exact hpushed.trans (ordinary_of_eq rfl)

theorem ordinary_chatDone (server : ChatServer) (request : ℕ)
    (source : Conn) (sender recipient room content : String)
    (result : SendMessageResult) (now : ℕ) :
    Ordinary conn server (server.chatDone request source sender recipient
      room content result now) := by
  unfold chatDone
  split_ifs
  · exact ordinary_sendError server source 3 _
  · have hechoed : Ordinary conn server
        ((server.sendAll (ServerReplies.privateRelay server.sessions sender
          recipient content result.msgId now)).send source
            (ServerReplies.privateChat sender recipient content result.msgId
              now)) :=
      (ordinary_toUser rfl).trans (ordinary_send _ fun _ => rfl)
    dsimp only
    split
    · exact hechoed
    · exact (hechoed.trans (ordinary_sendError _ source 3 _)).trans
        (ordinary_of_eq rfl)
  · exact ordinary_toMembers rfl
  · exact ordinary_of_eq rfl

theorem ordinary_friendResponseDone (server : ChatServer) (source : Conn)
    (requester responder : String) (accepted : Bool) :
    Ordinary conn server
      (server.friendResponseDone source requester responder accepted) := by
  have hsettled (sessions : SessionManager) :
      Ordinary conn server (server.withSessions sessions) :=
    ordinary_of_eq rfl
  exact ((hsettled _).trans (ordinary_notifyWithFriends _ _ rfl)).trans
    (ordinary_sendFriendList _ _)

theorem ordinary_friendRemoveDone (server : ChatServer) (source : Conn)
    (uid target : String) :
    Ordinary conn server (server.friendRemoveDone source uid target) := by
  have hparted (sessions : SessionManager) :
      Ordinary conn server (server.withSessions sessions) :=
    ordinary_of_eq rfl
  exact ((hparted _).trans (ordinary_notifyWithFriends _ _ rfl)).trans
    (ordinary_sendFriendList _ _)

theorem ordinary_recallDone (server : ChatServer) (source : Conn)
    (uid : String) (msgId : Int) (recipient room : String)
    (result : RecallResult) (now : ℕ) :
    Ordinary conn server
      (server.recallDone source uid msgId recipient room result now) := by
  unfold recallDone
  split_ifs
  · exact ordinary_sendError server source 8 _
  · exact (ordinary_toUser rfl).trans (ordinary_send _ fun _ => rfl)
  · exact (ordinary_toMembers rfl).trans (ordinary_send _ fun _ => rfl)
  · exact ordinary_send _ fun _ => rfl

/-- Only the callbacks of successful logins send replies that accept one. -/
theorem ordinary_runCallback (server : ChatServer) (request now : ℕ)
    {callback : Callback} (hentry : entry callback = none) :
    Ordinary conn server (server.runCallback request now callback) := by
  cases callback with
  | tokenLogin target result token =>
      have hfailed : result.success = false := by
        simpa [entry] using hentry
      simpa [runCallback, hfailed] using
        ordinary_sendError server target 6 result.reason
  | login target result =>
      have hfailed : result.success = false := by
        simpa [entry] using hentry
      simpa [runCallback, hfailed] using
        ordinary_sendError server target 6 result.reason
  | register target ok => exact ordinary_send server fun _ => rfl
  | chat => exact ordinary_chatDone server request _ _ _ _ _ _ now
  | createRoom target uid name result =>
      simp only [runCallback]
      split
      · exact ordinary_sendError server target 5 _
      · exact ordinary_of_eq rfl
  | joinRoom target uid name result =>
      simp only [runCallback]
      split
      · exact ordinary_sendError server target 4 _
      · exact ordinary_of_eq rfl
  | friendRequest target sender recipient message =>
      have hpending : Ordinary conn server (server.withSessions
          (server.sessions.addPendingRequest sender recipient)) :=
        ordinary_of_eq rfl
      exact hpending.trans (ordinary_toUser rfl)
  | friendResponse => exact ordinary_friendResponseDone server _ _ _ _
  | friendRemove => exact ordinary_friendRemoveDone server _ _ _
  | recallMsg => exact ordinary_recallDone server _ _ _ _ _ _ now

/-! ### Receptions -/

theorem ordinary_receive (server : ChatServer) {target : Conn}
    {envelope : Envelope}
    (hlogout : target = conn → ∀ req, envelope ≠ .logoutReq req) :
    Ordinary conn server (server.receive target envelope) := by
  have harrived : Ordinary conn server (server.arrived target envelope) :=
    ordinary_record { server with requests := server.requests + 1 }
      (by simp)
  have hqueued (task : Task) : Ordinary conn server
      ((server.arrived target envelope).runInPool server.requests task) :=
    harrived.trans (ordinary_of_eq rfl)
  have herror (code : ℕ) (reason : String) : Ordinary conn server
      ((server.arrived target envelope).sendError target code reason) :=
    harrived.trans (ordinary_sendError _ target code reason)
  cases envelope with
  | loginReq req =>
      show Ordinary conn server (handleLogin _ _ _ _)
      unfold handleLogin
      split_ifs
      · exact herror 1 _
      · exact hqueued _
      · exact herror 2 _
      · exact hqueued _
  | logoutReq req =>
      have hother : target ≠ conn := fun htarget => hlogout htarget req rfl
      have hleft : Ordinary conn server
          ((((server.arrived target _).runInPool server.requests
            (.logout req.uid req.token)).withSessions
              (server.sessions.deauthenticate target)).record
                (.loggedOut server.requests target)) :=
        ((hqueued (.logout req.uid req.token)).trans
          (ordinary_of_eq rfl)).trans (ordinary_record _ (by simp))
      exact hleft.trans (ordinary_send _ fun htarget => absurd htarget hother)
  | registerReq req =>
      show Ordinary conn server (handleRegister _ _ _ _)
      unfold handleRegister
      split_ifs
      · exact herror 7 _
      · exact hqueued _
  | heartbeat beat => exact harrived
  | notSet => exact harrived.trans (ordinary_record _ (by simp))
  | _ =>
      simp only [ChatServer.receive, onEnvelope, handleChatMessage,
        handleCreateRoom, handleJoinRoom, handleFriendRequest,
        handleFriendResponse, handleFriendRemove, handleRecall,
        whenAuthenticated]
      split
      · exact hqueued _
      · exact harrived

end Ordinary

/-! ### Replies to logins -/

/-- One of two messages does not accept a login. -/
abbrev Apart (first second : ServerMessage) : Prop :=
  accepts first = false ∨ accepts second = false

/-- Between two accepted logins something else is sent, and something else is
sent after the last one. -/
structure Spaced (conn : Conn) (server : ChatServer) : Prop where
  apart : (sentTo conn server.history).IsChain Apart
  last : ∀ msg ∈ (sentTo conn server.history).head?, accepts msg = false

section Spacing

variable {conn : Conn} {server next : ChatServer}

theorem isChain_append {newer older : List ServerMessage}
    (hnewer : ∀ msg ∈ newer, accepts msg = false)
    (holder : older.IsChain Apart) : (newer ++ older).IsChain Apart := by
  induction newer with
  | nil => exact holder
  | cons msg rest ih =>
      have hrest := ih fun other hother =>
        hnewer other (List.mem_cons_of_mem msg hother)
      have hmsg := hnewer msg List.mem_cons_self
      exact List.isChain_cons.mpr ⟨fun _ _ => .inl hmsg, hrest⟩

theorem Spaced.ordinary (hspaced : Spaced conn server)
    (hordinary : Ordinary conn server next) : Spaced conn next := by
  obtain ⟨newer, hsent, hnewer⟩ := hordinary
  constructor
  · rw [hsent]
    exact isChain_append hnewer hspaced.apart
  · rw [hsent]
    cases newer with
    | nil => exact hspaced.last
    | cons msg rest =>
        rintro _ ⟨⟩
        exact hnewer msg List.mem_cons_self

/-- The reply to a login, what waits for the user, and the friends at the
end. -/
theorem Spaced.loginAnswers (hspaced : Spaced conn server) (request : ℕ)
    (target : Conn) (result : LoginResult) (token : String) (now : ℕ) :
    Spaced conn ((((server.send target
        (ServerReplies.loginReply result token now)
      ).sendPendingRequests target result.pendingRequests
      ).sendOfflineMessages request target result.offlineMessages now
      ).sendFriendList target) := by
  generalize hreplied : server.send target
    (ServerReplies.loginReply result token now) = replied
  have hrest : Ordinary conn replied
      ((replied.sendPendingRequests target result.pendingRequests
        ).sendOfflineMessages request target result.offlineMessages now) :=
    (ordinary_sendPendingRequests replied target _).trans
      (ordinary_sendOfflineMessages _ request target _ now)
  generalize (replied.sendPendingRequests target result.pendingRequests
    ).sendOfflineMessages request target result.offlineMessages now =
      pushed at hrest ⊢
  subst hreplied
  by_cases htarget : target = conn
  · subst htarget
    have hreply : sentTo target (server.send target
        (ServerReplies.loginReply result token now)).history =
          ServerReplies.loginReply result token now ::
            sentTo target server.history := by
      simp [send, record, sentTo]
    have happart : (sentTo target (server.send target
        (ServerReplies.loginReply result token now)).history).IsChain
          Apart := by
      rw [hreply]
      exact List.isChain_cons.mpr
        ⟨fun msg hmsg => .inr (hspaced.last msg hmsg), hspaced.apart⟩
    have hfriends : sentTo target (pushed.sendFriendList target).history =
        ServerReplies.friendList pushed.sessions target ::
          sentTo target pushed.history := by
      simp [sendFriendList, send, record, sentTo]
    obtain ⟨newer, hsent, hnewer⟩ := hrest
    constructor
    · rw [hfriends, hsent]
      exact List.isChain_cons.mpr
        ⟨fun _ _ => .inl rfl, isChain_append hnewer happart⟩
    · rw [hfriends]
      rintro _ ⟨⟩
      rfl
  · have hreply : Ordinary conn server (server.send target
        (ServerReplies.loginReply result token now)) :=
      ordinary_send server fun heq => absurd heq htarget
    exact hspaced.ordinary
      ((hreply.trans hrest).trans (ordinary_sendFriendList pushed target))

theorem Spaced.loginDone (hspaced : Spaced conn server) (request : ℕ)
    (target : Conn) (result : LoginResult) (token : String) (now : ℕ) :
    Spaced conn (server.loginDone request target result token now) := by
  have hentered (sessions : SessionManager) :
      Ordinary conn server ((server.withSessions sessions).record
        (.loggedIn request target result)) :=
    ordinary_record (server.withSessions sessions) (by simp)
  have hbefriended (entered : ChatServer) (sessions : SessionManager) :
      Ordinary conn entered (entered.withSessions sessions) :=
    ordinary_of_eq rfl
  exact (hspaced.ordinary ((hentered _).trans
    (hbefriended _ _))).loginAnswers request target result token now

theorem Spaced.runCallback (hspaced : Spaced conn server) (request now : ℕ)
    (callback : Callback) :
    Spaced conn (server.runCallback request now callback) := by
  by_cases hentry : entry callback = none
  · exact hspaced.ordinary (ordinary_runCallback server request now hentry)
  cases callback with
  | tokenLogin target result token =>
      have hsuccess : result.success = true := by
        simpa [entry] using hentry
      simpa [ChatServer.runCallback, hsuccess] using
        hspaced.loginDone request target result token now
  | login target result =>
      have hsuccess : result.success = true := by
        simpa [entry] using hentry
      simpa [ChatServer.runCallback, hsuccess] using
        hspaced.loginDone request target result result.token now
  | _ => exact absurd rfl hentry

theorem Spaced.step {config : ServerConfig} {action : Action}
    (hspaced : Spaced conn server)
    (hlogout : ∀ req, action ≠ .receive conn (.logoutReq req))
    (hstep : step config server action = some next) : Spaced conn next := by
  cases steps_of_step hstep with
  | receive target envelope =>
      refine hspaced.ordinary (ordinary_receive server ?_)
      rintro rfl req rfl
      exact hlogout req rfl
  | invalidLength target =>
      exact hspaced.ordinary (ordinary_record server (by simp))
  | parseError target =>
      exact hspaced.ordinary (ordinary_sendError server target 1 _)
  | close target =>
      exact hspaced.ordinary ((ordinary_of_eq rfl).trans
        (ordinary_record (server.withSessions _) (by simp)))
  | start => exact hspaced.ordinary ⟨[], rfl, by simp⟩
  | call => exact hspaced.ordinary ⟨[], rfl, by simp⟩
  | finish index request task callback hworker =>
      cases callback with
      | none => exact hspaced.ordinary (ordinary_of_eq rfl)
      | some callback => exact hspaced.ordinary (ordinary_of_eq rfl)
  | callback loop now request callback rest hloop =>
      have htaken : Spaced conn { server with
          loops := Function.update server.loops loop rest } :=
        hspaced.ordinary (ordinary_of_eq rfl)
      exact htaken.runCallback request now callback

theorem initial_spaced (conn : Conn) : Spaced conn initial :=
  ⟨.nil, by simp [initial, sentTo]⟩

theorem apart_of_run {config : ServerConfig} {actions : List Action}
    (hrun : Runs.runFrom (step config) initial actions = some server)
    (hlogout : ∀ req, .receive conn (.logoutReq req) ∉ actions) :
    (server.messagesTo conn).IsChain Apart := by
  have hactions : Runs.EachStep (step config)
      (fun _ action => ∀ req, action ≠ .receive conn (.logoutReq req))
      initial actions := by
    refine Runs.eachStep_of_forall fun action haction _ req heq => ?_
    subst heq
    exact hlogout req haction
  have hspaced : Spaced conn server :=
    Runs.always_of_eachStep (initial_spaced conn)
      (fun _ _ _ hstep hgood hother => hgood.step hother hstep) hactions
      actions server (List.prefix_refl actions) hrun
  rw [messagesTo, List.isChain_reverse]
  exact hspaced.apart.imp fun _ _ hapart => hapart.symm

end Spacing

end ChatServer

namespace Benchmark

open ChatServer

/-- No two messages in a row accept a login.  However many of the logins the
server accepts: of the requests that the workers send over connections of
their own, no more than every other one is counted, and one more for each
connection. -/
theorem logins_counted_half {config : ServerConfig} {actions : List Action}
    {server : ChatServer}
    (hrun : Runs.runFrom (step config) initial actions = some server)
    {total concurrency : ℕ} (hconcurrency : 0 < concurrency)
    {conns : ℕ → Conn}
    (hrequests : ∀ idx < concurrency, ∀ envelope,
      .receive (conns idx) envelope ∈ actions →
        ∃ number, envelope = loginRequest number)
    {attempts : ℕ → List (Option Latency)}
    (hattempts : ∀ idx < concurrency,
      (attempts idx).length = requestsOf total concurrency idx)
    {incoming : ℕ → List ServerMessage}
    (hincoming : ∀ idx < concurrency,
      incoming idx <+: server.messagesTo (conns idx)) :
    (∀ conn, (∀ req, .receive conn (.logoutReq req) ∉ actions) →
      (server.messagesTo conn).IsChain Apart) ∧
      2 * ((List.range concurrency).map fun idx =>
        successCount .login (attempts idx) (incoming idx)).sum ≤
          total + concurrency := by
  refine ⟨fun conn hlogout => apart_of_run hrun hlogout, ?_⟩
  have hworker : ∀ idx < concurrency,
      2 * successCount .login (attempts idx) (incoming idx) ≤
        requestsOf total concurrency idx + 1 := by
    intro idx hidx
    have hlogout : ∀ req, .receive (conns idx) (.logoutReq req) ∉ actions := by
      intro req hreceive
      obtain ⟨number, heq⟩ := hrequests idx hidx _ hreceive
      cases heq
    obtain ⟨later, hlater⟩ := hincoming idx hidx
    have hapart := apart_of_run hrun hlogout
    rw [← hlater] at hapart
    rw [← hattempts idx hidx]
    exact successCount_login_half (attempts idx) hapart.left_of_append
  have hworkers : ∀ count ≤ concurrency,
      2 * ((List.range count).map fun idx =>
        successCount .login (attempts idx) (incoming idx)).sum ≤
          registerBase total concurrency count + count := by
    intro count hcount
    induction count with
    | zero => simp
    | succ count ih =>
        have hlast := hworker count hcount
        have hbefore := ih (Nat.le_of_succ_le hcount)
        rw [List.range_succ, List.map_append, List.map_singleton,
          List.sum_append, List.sum_singleton, registerBase]
        omega
  have hall := hworkers concurrency le_rfl
  rwa [registerBase_concurrency total concurrency hconcurrency] at hall

/-- Both logins are accepted, and the friends of the first user are read as
the answer to the second request. -/
def twoLogins : List Action :=
  passwordLogin 0 "bench1" "bench123" "t" ++ [.callback 0 5] ++
    passwordLogin 0 "bench2" "bench123" "s" ++ [.callback 0 6]

theorem logins_counted_half_twoLogins : ∃ server,
    Runs.runFrom (step { threads := 1, loopOf := fun _ => 0 }) initial
        twoLogins = some server ∧
      (server.messagesTo 0).map accepts = [true, false, true, false] ∧
      successCount .login [some ⟨1, by decide⟩, some ⟨1, by decide⟩]
        (server.messagesTo 0) = 1 ∧
      2 * ((List.range 1).map fun _ =>
        successCount .login [some ⟨1, by decide⟩, some ⟨1, by decide⟩]
          (server.messagesTo 0)).sum ≤ 2 + 1 := by
  obtain ⟨server, hrun, hmessages, hcount⟩ : ∃ server,
      Runs.runFrom (step { threads := 1, loopOf := fun _ => 0 }) initial
          twoLogins = some server ∧
        (server.messagesTo 0).map accepts = [true, false, true, false] ∧
        successCount .login [some ⟨1, by decide⟩, some ⟨1, by decide⟩]
          (server.messagesTo 0) = 1 :=
    ⟨_, rfl, rfl, rfl⟩
  have hhalf := @logins_counted_half _ _ _ hrun 2 1 (by decide) (fun _ => 0)
    (fun _ _ envelope hreceive => by
      have heither :
          envelope = .loginReq { uid := "bench1", passwd := "bench123" } ∨
          envelope = .loginReq { uid := "bench2", passwd := "bench123" } := by
        simpa [twoLogins, passwordLogin] using hreceive
      rcases heither with rfl | rfl
      · exact ⟨1, rfl⟩
      · exact ⟨2, rfl⟩)
    (fun _ => [some ⟨1, by decide⟩, some ⟨1, by decide⟩])
    (fun idx hidx => by
      obtain rfl : idx = 0 := Nat.lt_one_iff.mp hidx
      rfl)
    (fun _ => server.messagesTo 0) (fun _ _ => List.prefix_refl _)
  exact ⟨server, hrun, hmessages, hcount, hhalf.2⟩

end Benchmark

end MuduoChat
