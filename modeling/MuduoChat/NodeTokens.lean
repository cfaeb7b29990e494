import MuduoChat.ChatNodes
import MuduoChat.TaskCalls
import MuduoChat.TokenPhases
import Mathlib.Data.List.InsertIdx

/-!
# Tokens on a node

The tasks of a node have to do with tokens only through logins.  Every task
stays in step with the `TokenPhase` of its thread, so that what is known about
the life of a token holds on a running node too.
-/

namespace MuduoChat

/-! ## Tokens in the tasks of a node -/

namespace TokenPhase

def onNode (phase : TokenPhase) :
    (call : NodeCall) → call.Answer → Option TokenPhase
  | .sql _, _ => some phase
  | .session call, answer => phase.advance call answer

def ofTask : Task → TokenPhase
  | .loginWithToken _ token => asking (cstr token)
  | _ => unused

/-- A callback that logs in has written its token or found it valid. -/
def Grants (phase : TokenPhase) (callback : Option Callback) : Prop :=
  ∀ done conn result token, callback = some done →
    ChatServer.entry done = some (conn, result, token) →
      phase = written (cstr token) ∨ phase = seen (cstr token)

variable {α : Type} {phase : TokenPhase}

theorem obeys_overSql (prog : DbProg α) :
    Prog.Obeys onNode (fun after _ => after = phase) phase
      (overSql prog) := by
  induction prog with
  | ret value => exact rfl
  | call request next ih =>
      cases request with
      | query statement =>
          intro outcome
          exact ⟨phase, rfl, ih outcome.result⟩
      | _ =>
          intro answer
          exact ⟨phase, rfl, ih answer⟩

theorem obeys_overSession {post : TokenPhase → α → Prop}
    {prog : LoginProg α} (hprog : Prog.Obeys advance post phase prog) :
    Prog.Obeys onNode post phase (overSession prog) := by
  induction prog generalizing phase with
  | ret value => exact hprog
  | call request next ih =>
      intro answer
      obtain ⟨after, hadvance, hnext⟩ := hprog answer
      exact ⟨after, hadvance, ih answer hnext⟩

/-- Calls that have nothing to do with tokens, or only delete them. -/
def Plain : RepositoryCall → Prop
  | .createSession .. | .getSessionByToken _ | .updateSessionNode ..
  | .generateToken => False
  | _ => True

theorem obeys_plain {call : RepositoryCall} (hcall : Plain call) :
    Prog.Obeys onNode (fun after _ => after = phase) phase
      (answerRepository call) := by
  cases call with
  | createSession | getSessionByToken | updateSessionNode
  | generateToken => exact hcall.elim
  | revokeSession token =>
      exact obeys_overSession (obeys_revokeSession token)
  | revokeAllSessions uid =>
      exact obeys_overSession (obeys_revokeAllSessions uid)
  | time | mktime =>
      intro answer
      exact ⟨phase, rfl, rfl⟩
  | _ => exact obeys_overSql _

theorem obeys_translate {prog : ServiceProg α}
    (hprog : prog.OnlyCalls Plain) :
    Prog.Obeys onNode (fun after _ => after = phase) phase
      (prog.translate answerRepository) := by
  induction prog with
  | ret value => exact rfl
  | call request next ih =>
      obtain ⟨hrequest, hnext⟩ := Prog.onlyCalls_call.mp hprog
      apply (obeys_plain hrequest).bind
      intro after answer hafter
      subst hafter
      exact ih answer (hnext answer)

theorem obeys_plain_bind {post : TokenPhase → α → Prop}
    {call : RepositoryCall} {next : call.Answer → ServiceProg α}
    (hcall : Plain call)
    (hnext : ∀ answer, Prog.Obeys onNode post phase
      ((next answer).translate answerRepository)) :
    Prog.Obeys onNode post phase
      ((repository call >>= next).translate answerRepository) := by
  rw [Prog.translate_request_bind]
  apply (obeys_plain hcall).bind
  intro after answer hafter
  subst hafter
  exact hnext answer

theorem obeys_collect (uid token : String) (userInfo : UserInfo) :
    Prog.Obeys onNode
      (fun after result => after = phase ∧ result.token = token) phase
      ((LoginService.collect uid token userInfo).translate
        answerRepository) := by
  unfold LoginService.collect
  refine obeys_plain_bind (by trivial) fun friends => ?_
  refine obeys_plain_bind (by trivial) fun requests => ?_
  refine obeys_plain_bind (by trivial) fun messages => ?_
  exact ⟨rfl, rfl⟩

theorem obeys_loginService (uid passwd nodeId : String) :
    Prog.Obeys onNode
      (fun after result => result.success = true →
        after = written (cstr result.token)) unused
      ((LoginService.login uid passwd nodeId).translate
        answerRepository) := by
  unfold LoginService.login
  refine obeys_plain_bind (by trivial) fun verified => ?_
  cases verified with
  | false => exact fun hsuccess => nomatch hsuccess
  | true =>
      refine obeys_plain_bind (by trivial) fun userInfo => ?_
      cases userInfo with
      | none => exact fun hsuccess => nomatch hsuccess
      | some userInfo =>
          intro token
          refine ⟨drawn (cstr token), rfl, ?_⟩
          apply (obeys_overSession (obeys_createSession uid token nodeId
            _)).bind
          intro after ok hafter
          cases ok with
          | false => exact fun hsuccess => nomatch hsuccess
          | true =>
              have hwritten : after = written (cstr token) := hafter rfl
              subst hwritten
              apply (obeys_collect uid token userInfo).mono
              intro after result hcollected _
              rw [hcollected.1, hcollected.2]

theorem obeys_loginWithTokenService (token nodeId : String) :
    Prog.Obeys onNode
      (fun after result => result.success = true →
        after = seen (cstr token)) (asking (cstr token))
      ((LoginService.loginWithToken token nodeId).translate
        answerRepository) := by
  unfold LoginService.loginWithToken
  rw [Prog.translate_request_bind]
  apply (obeys_overSession (obeys_getSessionByToken token)).bind
  intro after session hafter
  cases session with
  | none => exact fun hsuccess => nomatch hsuccess
  | some session =>
      have hseen : after = seen (cstr token) := hafter rfl
      subst hseen
      rw [Prog.translate_request_bind]
      apply (obeys_overSession (obeys_updateSessionNode
        (seen (cstr token)) (by simp) token nodeId)).bind
      intro after updated hafter
      subst hafter
      refine obeys_plain_bind (by trivial) fun userInfo => ?_
      cases userInfo with
      | none => exact fun hsuccess => nomatch hsuccess
      | some userInfo =>
          apply (obeys_collect session.uid token userInfo).mono
          intro after result hcollected _
          exact hcollected.1

theorem obeys_plainTask {service : ServiceProg α}
    {finish : α → Option Callback} (hservice : service.OnlyCalls Plain)
    (hfinish : ∀ value done, finish value = some done →
      ChatServer.entry done = none) :
    Prog.Obeys onNode Grants phase
      ((service >>= fun value => pure (finish value)).translate
        answerRepository) := by
  rw [Prog.translate_bind]
  apply (obeys_translate hservice).bind
  intro after value _ done conn result token hdone hentry
  rw [hfinish value done hdone] at hentry
  cases hentry

/-- Only logins make calls that concern tokens. -/
theorem plain_of_makes {task : Task}
    (hlogin : ∀ conn uid passwd, task ≠ .login conn uid passwd)
    (htoken : ∀ conn token, task ≠ .loginWithToken conn token)
    (call : RepositoryCall) (hmakes : task.Makes call) : Plain call := by
  cases task with
  | login conn uid passwd => exact absurd rfl (hlogin conn uid passwd)
  | loginWithToken conn token => exact absurd rfl (htoken conn token)
  | _ => cases hmakes <;> exact trivial

theorem obeys_loginTask {service : ServiceProg LoginResult}
    {finish : LoginResult → Callback} (grant : LoginResult → String)
    (hservice : Prog.Obeys onNode
      (fun after result => result.success = true →
        after = written (cstr (grant result)) ∨
          after = seen (cstr (grant result)))
      phase (service.translate answerRepository))
    (hfinish : ∀ value conn result token,
      ChatServer.entry (finish value) = some (conn, result, token) →
        value.success = true ∧ token = grant value) :
    Prog.Obeys onNode Grants phase
      ((service >>= fun value => pure (some (finish value))).translate
        answerRepository) := by
  rw [Prog.translate_bind]
  apply hservice.bind
  intro after value hafter done conn result token hdone hentry
  cases hdone
  obtain ⟨hsuccess, rfl⟩ := hfinish value conn result token hentry
  exact hafter hsuccess

theorem obeys_task (nodeId : String) (task : Task) :
    Prog.Obeys onNode Grants (ofTask task)
      ((task.program nodeId).translate answerRepository) := by
  cases task with
  | loginWithToken conn token =>
      apply obeys_loginTask fun _ => token
      · apply (obeys_loginWithTokenService token nodeId).mono
        intro after result hafter hsuccess
        exact .inr (hafter hsuccess)
      intro value other result given hentry
      simp only [ChatServer.entry] at hentry
      split at hentry <;> cases hentry
      rename_i hsuccess
      exact ⟨hsuccess, rfl⟩
  | login conn uid passwd =>
      apply obeys_loginTask LoginResult.token
      · apply (obeys_loginService uid passwd nodeId).mono
        intro after result hafter hsuccess
        exact .inl (hafter hsuccess)
      intro value other result given hentry
      simp only [ChatServer.entry] at hentry
      split at hentry <;> cases hentry
      rename_i hsuccess
      exact ⟨hsuccess, rfl⟩
  | logout uid token =>
      apply obeys_plainTask
      · simp [LoginService.logout, repository, Plain]
      · intro value done hdone
        cases hdone
  | sendMessage conn sender recipient room content =>
      apply obeys_plainTask ((onlyCalls_sendMessage conn sender recipient
        room content).mono (plain_of_makes (by simp) (by simp)))
      intro value done hdone
      cases hdone
      rfl
  | createRoom conn uid name =>
      apply obeys_plainTask ((onlyCalls_createRoom conn name uid).mono
        (plain_of_makes (by simp) (by simp)))
      intro value done hdone
      cases hdone
      rfl
  | joinRoom conn uid roomName =>
      apply obeys_plainTask ((onlyCalls_joinRoom conn roomName uid).mono
        (plain_of_makes (by simp) (by simp)))
      intro value done hdone
      cases hdone
      rfl
  | addFriendRequest conn sender target message =>
      apply obeys_plainTask ((onlyCalls_addFriendRequest conn sender target
        message).mono (plain_of_makes (by simp) (by simp)))
      intro value done hdone
      cases hdone
      rfl
  | recallMessage conn uid msgId recipient room =>
      apply obeys_plainTask ((onlyCalls_recallMessage conn msgId uid recipient
        room).mono (plain_of_makes (by simp) (by simp)))
      intro value done hdone
      cases hdone
      rfl
  | _ =>
      apply obeys_plainTask
      · simp [LoginService.registerUser, ChatService.getMessage,
          ChatService.markMessagesDelivered,
          FriendService.respondFriendRequest, FriendService.removeFriend,
          repository, Prog.request, Plain]
      · intro value done hdone
        cases hdone <;> rfl

end TokenPhase

/-! ## Tokens that were granted -/

namespace ChatNode

variable {config : ServerConfig} {node next : ChatNode} {action : Action}
  {token : String}

def tokenPhase (thread : NodeThread) : TokenPhase :=
  (Prog.track TokenPhase.onNode (TokenPhase.ofTask thread.op.task)
    thread.log).getD .unused

def tokenPhases (node : ChatNode) : List TokenPhase :=
  node.threads.map tokenPhase

theorem track_tokenPhase {thread : NodeThread}
    (hthread : (system config).Faithful thread) :
    Prog.track TokenPhase.onNode (TokenPhase.ofTask thread.op.task)
        thread.log = some (tokenPhase thread) ∧
      Prog.Obeys TokenPhase.onNode TokenPhase.Grants (tokenPhase thread)
        thread.prog :=
  hthread.obeys_getD (TokenPhase.obeys_task config.nodeId thread.op.task)
    .unused

theorem tokenStep_of_onNode {world after : NodeWorld}
    {phase phase' : TokenPhase} {call : NodeCall} {answer : call.Answer}
    (hadvance : phase.onNode call answer = some phase')
    (heffect : world.effect call answer = some after) :
    TokenStep world.redis phase after.redis phase' := by
  cases call with
  | sql call =>
      obtain ⟨db, _, rfl⟩ := Option.map_eq_some_iff.mp heffect
      cases hadvance
      exact .keep ⟨rfl, fun _ _ huid => huid⟩
  | session call =>
      obtain ⟨redis, hredis, rfl⟩ := Option.map_eq_some_iff.mp heffect
      exact tokenStep_of_advances
        (TokenPhase.advances_of_advance hadvance) hredis

theorem tokenStep_of_exec {call : NodeCall} {answer : call.Answer}
    {thread : NodeThread} {world : NodeWorld}
    {rest : call.Answer → NodeProg (Option Callback)}
    (hthread : (system config).Faithful thread)
    (hprog : thread.prog = .call call rest)
    (heffect : node.world.effect call answer = some world) :
    TokenStep node.world.redis (tokenPhase thread) world.redis
      (tokenPhase (thread.advance call answer (rest answer))) := by
  obtain ⟨htrack, hobeys⟩ := track_tokenPhase hthread
  rw [hprog] at hobeys
  exact tokenStep_of_onNode (hobeys.advance_eq htrack .unused answer) heffect

theorem idle_begin (item : PoolTask) :
    (tokenPhase ((system config).begin item)).Idle := by
  intro token
  obtain ⟨request, task⟩ := item
  cases task <;> simp [tokenPhase, ThreadSystem.begin, Prog.track,
    TokenPhase.ofTask, TokenPhase.Owns]

theorem recedes_of_disturb {world after : NodeWorld} {event : NodeEvent}
    (hdisturb : world.disturb event = some after) :
    world.redis.Recedes after.redis := by
  cases event with
  | redis event =>
      obtain ⟨redis, hredis, rfl⟩ := Option.map_eq_some_iff.mp hdisturb
      exact MuduoChat.recedes_of_disturb hredis
  | tick clock =>
      cases hdisturb
      exact ⟨rfl, fun _ _ huid => huid⟩

/-- A token that was given out, and that no login is still to write. -/
def SpentOn (node : ChatNode) (token : String) : Prop :=
  Spent node.world.redis (tokenPhases node) token

structure TokensTracked (config : ServerConfig) (node : ChatNode) :
    Prop where
  faithful : ∀ thread ∈ node.threads, (system config).Faithful thread
  tokens : TokensKept node.world.redis (tokenPhases node)

/-- What a step does to tokens. -/
theorem TokensTracked.step (hnode : TokensTracked config node)
    (hstep : step config node action = some next) :
    TokensTracked config next ∧
      ∀ token, SpentOn node token → SpentOn next token ∧
        (node.world.redis.store.field (sessionKey token) "uid" = none →
          next.world.redis.store.field (sessionKey token) "uid" =
            none) := by
  have hfaithful := faithful_step hstep hnode.faithful
  cases steps_of_step hstep with
  | start item rest hqueue =>
      have hphases : (node.threads ++ [(system config).begin item]).map
          tokenPhase = tokenPhases node ++
            [tokenPhase ((system config).begin item)] :=
        List.map_append
      refine ⟨⟨hfaithful, ?_⟩, fun token hspent => ⟨?_, id⟩⟩
      · rw [tokenPhases, hphases]
        exact hnode.tokens.append (idle_begin item)
      · rw [SpentOn, tokenPhases, hphases]
        exact hspent.append (idle_begin item)
  | @exec index call answer thread world rest hthread hprog heffect =>
      have hold : (system config).Faithful thread :=
        hnode.faithful thread (List.mem_of_getElem? hthread)
      have htoken := tokenStep_of_exec hold hprog heffect
      have hphase : (tokenPhases node)[index]? =
          some (tokenPhase thread) := by
        rw [tokenPhases, List.getElem?_map, hthread]
        rfl
      have hphases : (node.threads.set index
          (thread.advance call answer (rest answer))).map tokenPhase =
            (tokenPhases node).set index
              (tokenPhase (thread.advance call answer (rest answer))) :=
        List.map_set
      refine ⟨⟨hfaithful, ?_⟩, fun token hspent => ⟨?_, ?_⟩⟩
      · rw [tokenPhases, hphases]
        exact hnode.tokens.exec hphase htoken
      · rw [SpentOn, tokenPhases, hphases]
        exact hspent.exec hphase htoken
      · exact hspent.uid_of_step hphase htoken
  | @finish index thread callback hthread hprog =>
      have hphases : (node.threads.eraseIdx index).map tokenPhase =
          (tokenPhases node).eraseIdx index :=
        (List.eraseIdx_map tokenPhase node.threads index).symm
      refine ⟨⟨hfaithful, ?_⟩, fun token hspent => ⟨?_, id⟩⟩
      · rw [tokenPhases, hphases]
        exact hnode.tokens.eraseIdx index
      · rw [SpentOn, tokenPhases, hphases]
        exact hspent.eraseIdx index
  | disturb hdisturb =>
      have hrecedes := recedes_of_disturb hdisturb
      refine ⟨⟨hfaithful, hnode.tokens.recedes hrecedes⟩, ?_⟩
      intro token hspent
      exact ⟨hspent.recedes hrecedes, hrecedes.uid_none⟩
  | _ => exact ⟨⟨hfaithful, hnode.tokens⟩, fun _ hspent => ⟨hspent, id⟩⟩

end ChatNode

end MuduoChat
