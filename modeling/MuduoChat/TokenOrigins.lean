import MuduoChat.TaskCalls
import MuduoChat.TokenRevocation

/-!
# Where tokens come from

A login by token asks for no password: it trusts the uid that the store keeps
under the token.  That trust is justified.  The store has the name of a user
only under a token which a login of that very user has drawn, after its
password was accepted, and no two logins draw the same token.  What the store
keeps of a uid ends at its first NUL, and so does what it is asked for of a
token.
-/

namespace MuduoChat

open RedisSessionRepo (readSession)

/-! ## Logins that draw tokens -/

/-- A login whose password was accepted and which then drew the token. -/
def Drew (op : LoginOp) (log : List (Sigma LoginCall.Answer))
    (token uid : String) : Prop :=
  ∃ passwd nodeId, op = .login uid passwd nodeId ∧
    ⟨.repository (.verifyUser uid passwd), true⟩ ∈ log ∧
      ⟨.repository .generateToken, token⟩ ∈ log

theorem Drew.append {op : LoginOp} {log : List (Sigma LoginCall.Answer)}
    {token uid : String} (hdrew : Drew op log token uid)
    (more : List (Sigma LoginCall.Answer)) :
    Drew op (log ++ more) token uid := by
  obtain ⟨passwd, nodeId, hop, hverified, htoken⟩ := hdrew
  exact ⟨passwd, nodeId, hop, List.mem_append_left more hverified,
    List.mem_append_left more htoken⟩

/-- A command that writes the name of a user writes it for a login that has
drawn the token. -/
def Warranted (op : LoginOp) (log : List (Sigma LoginCall.Answer)) :
    LoginCall → Prop
  | .redis (.command command) =>
      TokenPhase.Quiet (.redis (.command command)) ∨
        ∃ token uid nodeId loginTime, Drew op log token uid ∧
          command = .hmset (sessionKey (cstr token))
            [("uid", cstr uid), ("node_id", nodeId),
              ("login_time", loginTime)]
  | _ => True

/-- What a login that has succeeded relies on. -/
inductive ReliesOn (log : List (Sigma LoginCall.Answer))
    (result : LoginResult) : LoginOp → Prop
  | password (uid passwd nodeId : String)
      (hdrew : Drew (.login uid passwd nodeId) log result.token uid)
      (huser : ⟨.repository (.getUserInfo uid), some result.userInfo⟩ ∈
        log) :
      ReliesOn log result (.login uid passwd nodeId)
  | token (nodeId : String) (outcome : CommandOutcome)
      (session : SessionInfo)
      (hlookup : ⟨.redis (.command
        (.hmget (sessionKey (cstr result.token)) ["uid", "node_id"])),
          outcome⟩ ∈ log)
      (hsession : readSession result.token outcome.reply = some session)
      (huser : ⟨.repository (.getUserInfo session.uid),
        some result.userInfo⟩ ∈ log) :
      ReliesOn log result (.loginWithToken result.token nodeId)

section Programs

open Prog

theorem warranted_login (uid passwd nodeId : String) :
    (LoginOp.login uid passwd nodeId).program.Issues
      (Warranted (.login uid passwd nodeId)) := by
  refine issues_call.mpr ⟨trivial, fun verified => ?_⟩
  cases verified with
  | false => exact issues_ret
  | true =>
      refine issues_call.mpr ⟨trivial, fun userInfo => ?_⟩
      cases userInfo with
      | none => exact issues_ret
      | some userInfo =>
          refine issues_call.mpr ⟨trivial, fun token => ?_⟩
          refine issues_call.mpr ⟨trivial, fun conn => ?_⟩
          cases conn with
          | false => exact issues_ret
          | true =>
              refine issues_call.mpr ⟨trivial, fun now => ?_⟩
              refine issues_call.mpr ⟨.inr ⟨token, uid, cstr nodeId,
                toString now, ⟨passwd, nodeId, rfl, ?_, ?_⟩, ?_⟩,
                fun written => ?_⟩
              · simp
              · simp
              · rw [cstr_sessionKey]
              refine issues_call.mpr ⟨.inl trivial, fun expire => ?_⟩
              refine issues_call.mpr ⟨.inl trivial, fun online => ?_⟩
              refine issues_call.mpr ⟨.inl rfl, fun route => ?_⟩
              refine issues_call.mpr ⟨trivial, fun friends => ?_⟩
              refine issues_call.mpr ⟨trivial, fun requests => ?_⟩
              exact issues_call.mpr ⟨trivial, fun messages => issues_ret⟩

theorem quiet_of_makes {task : Task} {call : RepositoryCall}
    (hmakes : task.Makes call)
    (hlogin : ∀ conn uid passwd, task ≠ .login conn uid passwd) :
    (answerSession call).OnlyCalls TokenPhase.Quiet := by
  have hone {inner : LoginCall} (hquiet : TokenPhase.Quiet inner) :
      (Prog.request inner : LoginProg inner.Answer).OnlyCalls
        TokenPhase.Quiet :=
    onlyCalls_call.mpr ⟨hquiet, fun _ => onlyCalls_ret⟩
  cases hmakes with
  | verifyUser | getUserInfo | generateToken | createSession
  | getFriendList | getPendingRequests | getUndeliveredMessages =>
      exact (hlogin _ _ _ rfl).elim
  | getSessionByToken | updateSessionNode | revokeSession =>
      refine onlyCalls_call.mpr ⟨trivial, fun conn => ?_⟩
      cases conn with
      | false => exact onlyCalls_ret
      | true =>
          exact onlyCalls_call.mpr
            ⟨by simp [TokenPhase.Quiet], fun _ => onlyCalls_ret⟩
  | revokeAllSessions =>
      refine onlyCalls_call.mpr ⟨trivial, fun conn => ?_⟩
      cases conn with
      | false => exact onlyCalls_ret
      | true =>
          refine onlyCalls_call.mpr ⟨trivial, fun _ => ?_⟩
          refine onlyCalls_call.mpr ⟨trivial, fun _ => ?_⟩
          exact onlyCalls_call.mpr ⟨trivial, fun _ => onlyCalls_ret⟩
  | _ => exact hone trivial

theorem warranted_of_quiet {op : LoginOp}
    {log : List (Sigma LoginCall.Answer)} {call : LoginCall}
    (hquiet : TokenPhase.Quiet call) : Warranted op log call := by
  cases call with
  | redis call =>
      cases call with
      | command command => exact .inl hquiet
      | _ => trivial
  | repository call => trivial

theorem warranted_program (op : LoginOp) :
    op.program.Issues (Warranted op) := by
  have hquiet {α : Type} {service : ServiceProg α} {finish : α → LoginReply}
      {task : Task} (hmakes : service.OnlyCalls task.Makes)
      (hlogin : ∀ conn uid passwd, task ≠ .login conn uid passwd) :
      ((service >>= fun value => pure (finish value)).translate
        answerSession).Issues (Warranted op) := by
    have hcalls : ((service >>= fun value => pure (finish value)).translate
        answerSession).OnlyCalls TokenPhase.Quiet :=
      OnlyCalls.translate (fun call hcall => quiet_of_makes hcall hlogin)
        (hmakes.bind fun _ => onlyCalls_ret)
    intro log call next hreaches
    exact warranted_of_quiet (hcalls log call next hreaches)
  cases op with
  | login uid passwd nodeId => exact warranted_login uid passwd nodeId
  | loginWithToken token nodeId =>
      exact hquiet (onlyCalls_loginWithToken 0 token nodeId) (by simp)
  | logout uid token =>
      have hmakes : (LoginService.logout uid token).OnlyCalls
          (Task.Makes (.logout uid token)) := by
        refine onlyCalls_call.mpr ⟨.revokeSession uid token, fun _ => ?_⟩
        exact onlyCalls_call.mpr
          ⟨.revokeAllSessions uid token, fun _ => onlyCalls_ret⟩
      exact hquiet hmakes (by simp)

theorem relies_login (uid passwd nodeId : String) :
    ((LoginService.login uid passwd nodeId).translate
      answerSession).Ensures fun log result => result.success = true →
        ReliesOn log result (.login uid passwd nodeId) := by
  refine ensures_call.mpr fun verified => ?_
  cases verified with
  | false => exact ensures_ret.mpr fun hsuccess => nomatch hsuccess
  | true =>
      refine ensures_call.mpr fun userInfo => ?_
      cases userInfo with
      | none => exact ensures_ret.mpr fun hsuccess => nomatch hsuccess
      | some userInfo =>
          refine ensures_call.mpr fun token => ?_
          refine ensures_call.mpr fun conn => ?_
          cases conn with
          | false => exact ensures_ret.mpr fun hsuccess => nomatch hsuccess
          | true =>
              refine ensures_call.mpr fun now => ?_
              refine ensures_call.mpr fun written => ?_
              refine ensures_call.mpr fun expire => ?_
              refine ensures_call.mpr fun online => ?_
              refine ensures_call.mpr fun route => ?_
              refine ensures_call.mpr fun friends => ?_
              refine ensures_call.mpr fun requests => ?_
              refine ensures_call.mpr fun messages => ?_
              refine ensures_ret.mpr fun _ => ?_
              refine .password uid passwd nodeId
                ⟨passwd, nodeId, rfl, ?_, ?_⟩ ?_
              all_goals simp

theorem ensures_getSessionByToken (token : String) :
    (answerSession (.getSessionByToken token)).Ensures fun log found =>
      ∀ session, found = some session → ∃ outcome : CommandOutcome,
        ⟨.redis (.command
          (.hmget (sessionKey (cstr token)) ["uid", "node_id"])),
            outcome⟩ ∈ log ∧
        readSession token outcome.reply = some session := by
  refine ensures_call.mpr fun conn => ?_
  cases conn with
  | false =>
      refine ensures_ret.mpr ?_
      intro session hnone
      cases hnone
  | true =>
      refine ensures_call.mpr fun outcome => ?_
      refine ensures_ret.mpr ?_
      intro session hsession
      refine ⟨outcome, ?_, hsession⟩
      rw [← cstr_sessionKey]
      simp

theorem relies_loginWithToken (token nodeId : String) :
    ((LoginService.loginWithToken token nodeId).translate
      answerSession).Ensures fun log result => result.success = true →
        ReliesOn log result (.loginWithToken token nodeId) := by
  refine (ensures_getSessionByToken token).bind fun lookup found hfound => ?_
  cases found with
  | none => exact ensures_ret.mpr fun hsuccess => nomatch hsuccess
  | some session =>
      obtain ⟨outcome, hlookup, hsession⟩ := hfound session rfl
      have hupdate : (answerSession
          (.updateSessionNode token nodeId)).Ensures fun _ _ => True :=
        fun _ _ _ => trivial
      refine hupdate.bind fun update _ _ => ?_
      refine ensures_call.mpr fun userInfo => ?_
      cases userInfo with
      | none => exact ensures_ret.mpr fun hsuccess => nomatch hsuccess
      | some userInfo =>
          refine ensures_call.mpr fun friends => ?_
          refine ensures_call.mpr fun requests => ?_
          refine ensures_call.mpr fun messages => ?_
          refine ensures_ret.mpr fun _ => ?_
          refine .token nodeId outcome session ?_ hsession ?_
          · exact List.mem_append_left _ hlookup
          · simp

theorem relies_program (op : LoginOp) :
    op.program.Ensures fun log reply => ∀ result, reply = .login result →
      result.success = true → ReliesOn log result op := by
  have hlogin {op : LoginOp} {service : ServiceProg LoginResult}
      (hservice : (service.translate answerSession).Ensures
        fun log result => result.success = true → ReliesOn log result op) :
      ((service >>= fun result => pure (.login result)).translate
        answerSession).Ensures fun log reply => ∀ result,
          reply = LoginReply.login result → result.success = true →
            ReliesOn log result op := by
    rw [translate_bind]
    refine hservice.bind fun log value hvalue => ensures_ret.mpr ?_
    intro result hreply hsuccess
    cases hreply
    rw [List.append_nil]
    exact hvalue hsuccess
  cases op with
  | login uid passwd nodeId => exact hlogin (relies_login uid passwd nodeId)
  | loginWithToken token nodeId =>
      exact hlogin (relies_loginWithToken token nodeId)
  | logout uid token =>
      have hreply : ((LoginService.logout uid token).translate
          answerSession).Ensures fun _ _ => True := fun _ _ _ => trivial
      show ((LoginService.logout uid token >>= fun ok =>
        (pure (.logout ok) : ServiceProg LoginReply)).translate
          answerSession).Ensures _
      rw [translate_bind]
      refine hreply.bind fun log value _ => ensures_ret.mpr ?_
      intro result hlogin
      cases hlogin

end Programs

/-! ## The origin of a token -/

/-- A login of the user, whose uid begins like this, has drawn the token. -/
def Issued (state : LoginState) (token uid : String) : Prop :=
  ∃ thread ∈ state.threads, ∃ owner, cstr owner = uid ∧
    Drew thread.op thread.log token owner

/-- Every name that is stored or was found under a token belongs to the login
that drew it, and every token has been drawn once. -/
structure OriginsKept (state : LoginState) : Prop where
  faithful : ∀ thread ∈ state.threads, loginSystem.Faithful thread
  stored : ∀ token uid,
    state.world.store.field (sessionKey token) "uid" = some uid →
      Issued state token uid
  found : ∀ thread ∈ state.threads, ∀ token outcome session,
    ⟨.redis (.command
      (.hmget (sessionKey (cstr token)) ["uid", "node_id"])), outcome⟩ ∈
        thread.log →
    readSession token outcome.reply = some session →
      Issued state (cstr token) session.uid
  drawn : ∀ thread ∈ state.threads, ∀ token,
    ⟨.repository .generateToken, token⟩ ∈ thread.log →
      token ∈ state.world.drawn ∧ NulFree token
  once : ∀ (i j : ℕ) (one other : LoginThread) token,
    state.threads[i]? = some one → state.threads[j]? = some other →
      ⟨.repository .generateToken, token⟩ ∈ one.log →
        ⟨.repository .generateToken, token⟩ ∈ other.log → i = j

section Origins

variable {state next : LoginState} {move : LoginMove}

theorem originsKept_start : OriginsKept { world := {} } := by
  constructor <;> simp [ExpiringStore.field, ExpiringStore.value,
    ExpiringStore.live]

/-- A name that turns up under a token was there before, or is written for the
login that has drawn the token. -/
theorem uid_of_warranted {world after : RedisWorld} {op : LoginOp}
    {log : List (Sigma LoginCall.Answer)} {call : LoginCall}
    {answer : call.Answer} {token uid : String}
    (hwarranted : Warranted op log call)
    (heffect : world.effect call answer = some after)
    (huid : after.store.field (sessionKey token) "uid" = some uid) :
    world.store.field (sessionKey token) "uid" = some uid ∨
      ∃ drew owner, cstr drew = token ∧ cstr owner = uid ∧
        Drew op log drew owner := by
  cases call with
  | repository call =>
      left
      cases call with
      | generateToken =>
          obtain ⟨_, rfl⟩ := draw_of_effect heffect
          exact huid
      | _ =>
          cases heffect
          exact huid
  | redis call =>
      cases call with
      | command command =>
          rcases command_of_effect heffect with ⟨rfl, _⟩ | ⟨rfl, _⟩
          · rcases hwarranted with
              hquiet | ⟨other, owner, nodeId, loginTime, hdrew, rfl⟩
            · exact .inl (uid_execute hquiet huid)
            · by_cases hother : token = cstr other
              · subst hother
                right
                have htext : world.store.text (sessionKey (cstr other)) =
                    none := by
                  rw [← ExpiringStore.text_setHash]
                  exact ExpiringStore.text_of_field huid
                have howner : ("uid", cstr owner) ∈ [("uid", cstr owner),
                    ("node_id", nodeId), ("login_time", loginTime)] :=
                  List.mem_cons_self
                have hwritten := ExpiringStore.field_setHash_of_mem htext
                  (by simp) howner
                exact ⟨other, owner, rfl,
                  Option.some.inj (hwritten.symm.trans huid), hdrew⟩
              · left
                have hkey : sessionKey token ≠ sessionKey (cstr other) := by
                  simpa using hother
                rwa [ExpiringStore.field_eq_of_live
                  (ExpiringStore.live_execute_of_ne hkey)] at huid
          · exact .inl huid
      | _ =>
          cases heffect
          exact .inl huid

theorem drawn_of_effect {world after : RedisWorld} {call : LoginCall}
    {answer : call.Answer} (heffect : world.effect call answer = some after) :
    world.drawn ⊆ after.drawn := by
  cases call with
  | repository call =>
      cases call with
      | generateToken =>
          obtain ⟨_, rfl⟩ := draw_of_effect heffect
          exact List.subset_cons_self _ _
      | _ =>
          cases heffect
          exact List.Subset.refl _
  | redis call =>
      cases call with
      | command command =>
          rcases command_of_effect heffect with ⟨rfl, _⟩ | ⟨rfl, _⟩ <;>
            exact List.Subset.refl _
      | _ =>
          cases heffect
          exact List.Subset.refl _

theorem OriginsKept.enter (hstate : OriginsKept state) (op : LoginOp) :
    OriginsKept { state with
      threads := state.threads ++ [loginSystem.begin op] } := by
  have hissued {token uid : String} (hissued : Issued state token uid) :
      Issued { state with
        threads := state.threads ++ [loginSystem.begin op] } token uid := by
    obtain ⟨thread, hthread, owner, huid, hdrew⟩ := hissued
    exact ⟨thread, List.mem_append_left _ hthread, owner, huid, hdrew⟩
  have hmem {thread : LoginThread} {entry : Sigma LoginCall.Answer}
      (hthread : thread ∈ state.threads ++ [loginSystem.begin op])
      (hentry : entry ∈ thread.log) : thread ∈ state.threads := by
    rcases List.mem_append.mp hthread with hold | hnew
    · exact hold
    · rw [List.mem_singleton.mp hnew] at hentry
      cases hentry
  have hplace {thread : LoginThread} {entry : Sigma LoginCall.Answer}
      {i : ℕ}
      (hthread : (state.threads ++ [loginSystem.begin op])[i]? =
        some thread) (hentry : entry ∈ thread.log) :
      state.threads[i]? = some thread := by
    rw [List.getElem?_append] at hthread
    split at hthread
    · exact hthread
    · have hnew := List.mem_of_getElem? hthread
      rw [List.mem_singleton.mp hnew] at hentry
      cases hentry
  refine ⟨?_, fun token uid huid => hissued (hstate.stored token uid huid),
    ?_, ?_, ?_⟩
  · intro thread hthread
    rcases List.mem_append.mp hthread with hold | hnew
    · exact hstate.faithful thread hold
    · rw [List.mem_singleton.mp hnew]
      exact .begin op
  · intro thread hthread token outcome session hlookup hsession
    exact hissued (hstate.found thread (hmem hthread hlookup) token outcome
      session hlookup hsession)
  · intro thread hthread token hdraw
    exact hstate.drawn thread (hmem hthread hdraw) token hdraw
  · intro i j one other token hone hother hdraw hagain
    exact hstate.once i j one other token (hplace hone hdraw)
      (hplace hother hagain) hdraw hagain

section Exec

variable {after : LoginState} {index : ℕ} {call : LoginCall}
  {answer : call.Answer} {thread : LoginThread}
  {rest : call.Answer → LoginProg LoginReply}

theorem Drew.issued {token uid owner : String}
    (hdrew : Drew thread.op thread.log token owner) (huid : cstr owner = uid)
    (hthread : state.threads[index]? = some thread)
    (hthreads : after.threads = state.threads.set index
      (thread.advance call answer (rest answer))) :
    Issued after token uid := by
  refine ⟨thread.advance call answer (rest answer), ?_, owner, huid,
    hdrew.append _⟩
  rw [hthreads]
  exact List.mem_set (List.getElem?_eq_some_iff.mp hthread).1 _

theorem Issued.exec {token uid : String} (hissued : Issued state token uid)
    (hthread : state.threads[index]? = some thread)
    (hthreads : after.threads = state.threads.set index
      (thread.advance call answer (rest answer))) :
    Issued after token uid := by
  obtain ⟨other, hother, owner, huid, hdrew⟩ := hissued
  obtain ⟨before, later, hsplit, hset, _⟩ := exists_around_getElem? hthread
  have hkept (hmem : other ∈ before ++ later) : Issued after token uid := by
    refine ⟨other, ?_, owner, huid, hdrew⟩
    rw [hthreads, hset]
    rcases List.mem_append.mp hmem with hmem | hmem
    · exact List.mem_append_left _ hmem
    · exact List.mem_append_right _ (List.mem_cons_of_mem _ hmem)
  rw [hsplit] at hother
  rcases List.mem_append.mp hother with hmem | hmem
  · exact hkept (List.mem_append_left _ hmem)
  · rcases List.mem_cons.mp hmem with rfl | hmem
    · exact hdrew.issued huid hthread hthreads
    · exact hkept (List.mem_append_right _ hmem)

/-- A token that was drawn before is not drawn again. -/
theorem OriginsKept.not_drawn (hstate : OriginsKept state)
    (heffect : state.world.effect call answer = some after.world)
    {other : LoginThread} (hother : other ∈ state.threads) {token : String}
    (hdraw : ⟨.repository .generateToken, token⟩ ∈ other.log) :
    (⟨call, answer⟩ : Sigma LoginCall.Answer) ≠
      ⟨.repository .generateToken, token⟩ := by
  intro heq
  cases heq
  exact (draw_of_effect heffect).1.1
    (hstate.drawn other hother token hdraw).1

theorem OriginsKept.exec (hstate : OriginsKept state)
    (hthread : state.threads[index]? = some thread)
    (hprog : thread.prog = .call call rest)
    (heffect : state.world.effect call answer = some after.world)
    (hthreads : after.threads = state.threads.set index
      (thread.advance call answer (rest answer)))
    (hfaithful : ∀ thread ∈ after.threads, loginSystem.Faithful thread) :
    OriginsKept after := by
  have hmem := List.mem_of_getElem? hthread
  have hwarranted : Warranted thread.op thread.log call := by
    have hreaches : Prog.Reaches (loginSystem.program thread.op) thread.log
        (.call call rest) := hprog ▸ hstate.faithful _ hmem
    exact warranted_program thread.op _ _ _ hreaches
  have hstored (token uid : String)
      (huid : state.world.store.field (sessionKey token) "uid" =
        some uid) : Issued after token uid :=
    (hstate.stored token uid huid).exec hthread hthreads
  have hlogged {other : LoginThread} {entry : Sigma LoginCall.Answer}
      (hother : other ∈ after.threads) (hentry : entry ∈ other.log) :
      (∃ old ∈ state.threads, entry ∈ old.log) ∨
        entry = ⟨call, answer⟩ := by
    rw [hthreads] at hother
    rcases List.mem_or_eq_of_mem_set hother with hold | rfl
    · exact .inl ⟨other, hold, hentry⟩
    · rcases List.mem_append.mp hentry with hearlier | hnow
      · exact .inl ⟨thread, hmem, hearlier⟩
      · exact .inr (List.mem_singleton.mp hnow)
  refine ⟨hfaithful, ?_, ?_, ?_, ?_⟩
  · intro token uid huid
    rcases uid_of_warranted hwarranted heffect huid with
      hold | ⟨drew, owner, rfl, howner, hdrew⟩
    · exact hstored token uid hold
    · obtain ⟨_, _, _, _, hdraw⟩ := id hdrew
      rw [(hstate.drawn thread hmem drew hdraw).2.cstr]
      exact hdrew.issued howner hthread hthreads
  · intro other hother token outcome session hlookup hsession
    rcases hlogged hother hlookup with ⟨old, hold, hearlier⟩ | hnow
    · exact (hstate.found old hold token outcome session hearlier
        hsession).exec hthread hthreads
    · cases hnow
      rcases command_of_effect heffect with
        ⟨_, hreply | hreply⟩ | ⟨_, _, hreply | hreply⟩ <;>
        rw [hreply] at hsession
      · cases hsession
      · obtain ⟨uid, hfound, huid⟩ := uid_of_readSession hsession
        obtain ⟨issuer, hissuer, owner, rfl, hdrew⟩ :=
          hstored (cstr token) uid hfound
        rw [huid, cstr_cstr]
        exact ⟨issuer, hissuer, owner, rfl, hdrew⟩
      · cases hsession
      · cases hsession
  · intro other hother token hdraw
    rcases hlogged hother hdraw with ⟨old, hold, hearlier⟩ | hnow
    · obtain ⟨hdrawn, hnul⟩ := hstate.drawn old hold token hearlier
      exact ⟨drawn_of_effect heffect hdrawn, hnul⟩
    · cases hnow
      obtain ⟨⟨_, hnul⟩, hworld⟩ := draw_of_effect heffect
      rw [hworld]
      exact ⟨List.mem_cons_self, hnul⟩
  · intro i j one other token hone hother hdraw hagain
    rw [hthreads] at hone hother
    have hfresh {old : LoginThread} (hold : old ∈ state.threads)
        (hearlier : ⟨.repository .generateToken, token⟩ ∈ old.log)
        (hnow : ⟨.repository .generateToken, token⟩ ∈
          (thread.advance call answer (rest answer)).log) :
        ⟨.repository .generateToken, token⟩ ∈ thread.log := by
      rcases List.mem_append.mp hnow with hbefore | hnew
      · exact hbefore
      · exact (hstate.not_drawn heffect hold hearlier
          (List.mem_singleton.mp hnew).symm).elim
    rcases getElem?_set_cases hone with ⟨rfl, rfl⟩ | ⟨hi, holdOne⟩
    · rcases getElem?_set_cases hother with ⟨rfl, rfl⟩ | ⟨hj, hother⟩
      · rfl
      · exact hstate.once i j thread other token hthread hother
          (hfresh (List.mem_of_getElem? hother) hagain hdraw) hagain
    · rcases getElem?_set_cases hother with ⟨rfl, rfl⟩ | ⟨hj, hother⟩
      · exact hstate.once i j one thread token holdOne hthread hdraw
          (hfresh (List.mem_of_getElem? holdOne) hdraw hagain)
      · exact hstate.once i j one other token holdOne hother hdraw hagain

end Exec

theorem OriginsKept.step (hstate : OriginsKept state)
    (hstep : loginSystem.step state move = some next) :
    OriginsKept next := by
  have hfaithful := ThreadSystem.faithful_step hstep hstate.faithful
  cases ThreadSystem.stepped_of_step hstep with
  | enter op => exact hstate.enter op
  | exec hthread hprog heffect =>
      exact hstate.exec hthread hprog heffect rfl hfaithful
  | disturb hdisturb =>
      have hrecedes := recedes_of_disturb hdisturb
      refine ⟨hfaithful, ?_, hstate.found, ?_, hstate.once⟩
      · intro token uid huid
        exact hstate.stored token uid (hrecedes.uid token uid huid)
      · intro thread hthread token hdraw
        rw [hrecedes.drawn]
        exact hstate.drawn thread hthread token hdraw

/-- A login that has succeeded gets the user whose password was accepted by
the one login that has drawn the token; of a uid and of a token that have a
NUL, what is before it counts. -/
structure TracesToPassword (state : LoginState) (thread issuer : LoginThread)
    (result : LoginResult) (uid passwd nodeId : String) : Prop where
  op : issuer.op = .login uid passwd nodeId
  verified : ⟨.repository (.verifyUser uid passwd), true⟩ ∈ issuer.log
  user : ∃ who, (who = uid ∨ who = cstr uid) ∧
    ⟨.repository (.getUserInfo who), some result.userInfo⟩ ∈ thread.log
  drawn : ∀ other ∈ state.threads,
    ⟨.repository .generateToken, cstr result.token⟩ ∈ other.log ↔
      other = issuer

theorem OriginsKept.traces (hkept : OriginsKept state)
    {thread issuer : LoginThread} {result : LoginResult}
    {uid token : String} (hissuer : issuer ∈ state.threads)
    (hdrew : Drew issuer.op issuer.log token uid)
    (htoken : cstr result.token = token)
    (huser : ∃ who, (who = uid ∨ who = cstr uid) ∧
      ⟨.repository (.getUserInfo who), some result.userInfo⟩ ∈
        thread.log) :
    ∃ passwd nodeId,
      TracesToPassword state thread issuer result uid passwd nodeId := by
  obtain ⟨passwd, nodeId, hop, hverified, hdraw⟩ := hdrew
  refine ⟨passwd, nodeId, hop, hverified, huser, ?_⟩
  rw [htoken]
  intro other hother
  constructor
  · intro hagain
    obtain ⟨i, hi⟩ := List.mem_iff_getElem?.mp hissuer
    obtain ⟨j, hj⟩ := List.mem_iff_getElem?.mp hother
    obtain rfl := hkept.once i j issuer other _ hi hj hdraw hagain
    exact Option.some.inj (hj.symm.trans hi)
  · rintro rfl
    exact hdraw

/-- Whatever runs beside it, a login that succeeds, by password or by token,
gets the user whose password was accepted by the one login that has drawn the
token. -/
theorem login_traces_to_password {moves : List LoginMove}
    (hrun : Runs.runFrom loginSystem.step { world := {} } moves =
      some state)
    {thread : LoginThread} (hthread : thread ∈ state.threads)
    {result : LoginResult} (hprog : thread.prog = .ret (.login result))
    (hsuccess : result.success = true) :
    ∃ issuer ∈ state.threads, ∃ uid passwd nodeId,
      TracesToPassword state thread issuer result uid passwd nodeId := by
  have hkept : OriginsKept state :=
    Runs.invariant_of_run originsKept_start
      (fun _ _ _ hstep hstate => hstate.step hstep) hrun
  have hreaches : Prog.Reaches thread.op.program thread.log
      (.ret (.login result)) := hprog ▸ hkept.faithful thread hthread
  have hrelies := relies_program thread.op _ _ hreaches result rfl hsuccess
  generalize hop : thread.op = op at hrelies
  cases hrelies with
  | password uid passwd nodeId hdrew huser =>
      have hdrew : Drew thread.op thread.log result.token uid := hop ▸ hdrew
      obtain ⟨_, _, _, _, hdraw⟩ := id hdrew
      have htoken := (hkept.drawn thread hthread _ hdraw).2.cstr
      obtain ⟨passwd, nodeId, htraces⟩ := hkept.traces hthread hdrew htoken
        ⟨uid, .inl rfl, huser⟩
      exact ⟨thread, hthread, uid, passwd, nodeId, htraces⟩
  | token nodeId outcome session hlookup hsession huser =>
      obtain ⟨issuer, hissuer, uid, huid, hdrew⟩ :=
        hkept.found thread hthread _ outcome session hlookup hsession
      obtain ⟨passwd, nodeId, htraces⟩ := hkept.traces hissuer hdrew rfl
        ⟨session.uid, .inr huid.symm, huser⟩
      exact ⟨issuer, hissuer, uid, passwd, nodeId, htraces⟩

/-- A login with the token `t`, which ann's login has drawn. -/
def tokenMoves : List LoginMove :=
  [.enter (.loginWithToken "t" "node-2"),
    .exec 1 (.redis .getConnection) true,
    .exec 1 (.redis (.command
      (.hmget (sessionKey "t") ["uid", "node_id"])))
      ⟨true, some (.array [some "ann", some "node-1"])⟩,
    .exec 1 (.redis .getConnection) true,
    .exec 1 (.redis (.command
      (.hmset (sessionKey "t") [("node_id", "node-2")]))) done,
    .exec 1 (.repository (.getUserInfo "ann")) (some userAnn),
    .exec 1 (.repository (.getFriendList "ann")) ([] : List UserInfo),
    .exec 1 (.repository (.getPendingRequests "ann")) ([] : List String),
    .exec 1 (.repository (.getUndeliveredMessages "ann"))
      ([] : List MessageInfo)]

theorem login_traces_to_password_tokenMoves : ∃ state : LoginState,
    Runs.runFrom loginSystem.step { world := {} }
        (loginMoves ++ tokenMoves) = some state ∧
      ∃ thread ∈ state.threads, thread.op = .loginWithToken "t" "node-2" ∧
        ∃ result, thread.prog = .ret (.login result) ∧
          ∃ issuer ∈ state.threads, ∃ uid passwd nodeId,
            TracesToPassword state thread issuer result uid passwd
              nodeId := by
  have hrun : ∃ (state : LoginState) (thread : LoginThread)
      (result : LoginResult),
      Runs.runFrom loginSystem.step { world := {} }
          (loginMoves ++ tokenMoves) = some state ∧
        state.threads[1]? = some thread ∧
        thread.op = .loginWithToken "t" "node-2" ∧
        thread.prog = .ret (.login result) ∧ result.success = true :=
    ⟨_, _, _, rfl, rfl, rfl, rfl, rfl⟩
  obtain ⟨state, thread, result, hrun, hplace, hop, hprog, hsuccess⟩ := hrun
  have hthread := List.mem_of_getElem? hplace
  exact ⟨state, hrun, thread, hthread, hop, result, hprog,
    login_traces_to_password hrun hthread hprog hsuccess⟩

end Origins

end MuduoChat
