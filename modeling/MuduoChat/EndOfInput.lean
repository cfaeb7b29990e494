import MuduoChat.ConsoleClient

/-!
# The end of the input

At the end of its input `readLine` returns the empty string, like for an empty
line, and the menus ask again after an empty line.  The round that is under
way may still send its request, with the missing lines taken as empty.  After
that the console thread goes round its menus for good: it never ends, so that
`main` never gets past joining it, and it sends nothing any more.
-/

namespace MuduoChat

namespace Console

/-! ## Rounds at the end of the input -/

/-- With empty lines for an answer the program sends at most so many requests
and goes on to another round. -/
def Spends : ℕ → ConsoleProg Bool → Prop
  | _, .ret goesOn => goesOn = true
  | budget, .call .isLoggedIn next =>
      ∀ loggedIn, Spends budget (next loggedIn)
  | budget, .call .readLine next => Spends budget (next [])
  | budget, .call (.send _) next =>
      0 < budget ∧ Spends (budget - 1) (next ())
  | _, .call .quit _ => False

/-- The user has chosen to leave. -/
def Leaving : ConsoleProg Bool → Prop
  | .ret goesOn => goesOn = false
  | .call .quit _ => True
  | _ => False

/-- Unless the user leaves, the rest of a round sends one request at most. -/
def Settles (rest : ConsoleProg Bool) : Prop :=
  Leaving rest ∨ Spends 1 rest

abbrev Settled (prog : ConsoleProg Bool) : Prop :=
  prog.Throughout Settles

theorem settled_ret (goesOn : Bool) : Settled (.ret goesOn) := by
  cases goesOn with
  | false => exact .inl rfl
  | true => exact .inr rfl

theorem settled_ask {next : List UInt8 → ConsoleProg Bool}
    (hempty : Spends 1 (next [])) (hnext : ∀ line, Settled (next line)) :
    Settled (ask >>= next) :=
  ⟨.inr hempty, hnext⟩

theorem settled_send (request : ClientRequest) :
    Settled (sendAndGoOn request) :=
  ⟨.inr ⟨Nat.one_pos, rfl⟩, fun _ => settled_ret true⟩

theorem spends_send (request : ClientRequest) :
    Spends 1 (sendAndGoOn request) :=
  ⟨Nat.one_pos, rfl⟩

theorem settled_sendUnless (given : Prop) [Decidable given]
    (request : ClientRequest) :
    Settled (if given then pure true else sendAndGoOn request) := by
  split
  · exact settled_ret true
  · exact settled_send request

theorem spends_sendUnless (given : Prop) [Decidable given]
    (request : ClientRequest) :
    Spends 1 (if given then pure true else sendAndGoOn request) := by
  split
  · rfl
  · exact spends_send request

/-- Two questions before a request is sent. -/
theorem settled_askTwo {given : List UInt8 → List UInt8 → Prop}
    [∀ first second, Decidable (given first second)]
    {request : List UInt8 → List UInt8 → ClientRequest} :
    Settled (ask >>= fun first => ask >>= fun second =>
      if given first second then pure true
      else sendAndGoOn (request first second)) := by
  have hsecond (first : List UInt8) :
      Spends 1 (if given first [] then pure true
        else sendAndGoOn (request first [])) :=
    spends_sendUnless (given first []) _
  exact settled_ask (hsecond []) fun first =>
    settled_ask (hsecond first) fun second => settled_sendUnless _ _

theorem spends_authMenu : Spends 0 authMenu := rfl

theorem spends_mainMenu : Spends 0 mainMenu := rfl

theorem spends_menu : Spends 0 menu := by
  intro loggedIn
  cases loggedIn with
  | false => exact spends_authMenu
  | true => exact spends_mainMenu

theorem settled_authMenu : Settled authMenu := by
  refine settled_ask rfl fun choice => ?_
  split
  · exact settled_askTwo
  split
  · exact settled_askTwo
  split
  · exact ⟨.inl trivial, fun _ => settled_ret false⟩
  · exact settled_ret true

theorem settled_mainMenu : Settled mainMenu := by
  refine settled_ask rfl fun choice => ?_
  split
  · exact settled_askTwo
  split
  · exact settled_askTwo
  split
  · exact settled_ask rfl fun name => settled_sendUnless _ _
  split
  · exact settled_askTwo
  split
  · exact settled_askTwo
  split
  · exact settled_askTwo
  split
  · refine settled_ask rfl fun idStr => ?_
    have hthird (toUid : List UInt8) :
        Spends 1 (if idStr = [] then pure true
          else sendAndGoOn (.recallMsg (strtoull idStr) toUid [])) :=
      spends_sendUnless _ _
    exact settled_ask (hthird []) fun toUid =>
      settled_ask (hthird toUid) fun room => settled_sendUnless _ _
  split
  · exact settled_send .logout
  · exact settled_ret true

theorem settled_menu : Settled menu := by
  refine ⟨.inr ?_, ?_⟩
  · intro loggedIn
    cases loggedIn with
    | false => rfl
    | true => rfl
  · intro loggedIn
    cases loggedIn with
    | false => exact settled_authMenu
    | true => exact settled_mainMenu

end Console

/-! ## The client -/

namespace ChatClient

open Console

variable {client next : ChatClient} {action : Action} {bound : ℕ}

/-- Whatever is left of a round settles. -/
def Rounds (client : ChatClient) : Prop :=
  ∀ rest, client.console = .round rest → Settled rest

theorem rounds_goOn {rest : ConsoleProg Bool} (hrest : Settled rest) :
    Rounds (client.goOn rest) := by
  intro other hother
  cases hother
  exact hrest

theorem Rounds.consoleStep (hclient : Rounds client)
    (hstep : client.consoleStep = some next) : Rounds next := by
  unfold ChatClient.consoleStep at hstep
  split at hstep
  · obtain ⟨_, hstep⟩ := Option.ite_none_right_eq_some.mp hstep
    cases hstep
    exact rounds_goOn settled_menu
  · cases hstep
    exact rounds_goOn settled_menu
  · cases hstep
    simp [Rounds]
  · rename_i next hconsole
    cases hstep
    exact rounds_goOn ((hclient _ hconsole).2 _)
  · rename_i next hconsole
    cases hstep
    exact @rounds_goOn client _
      ((hclient _ hconsole).2 (readLine client.stdin).1)
  · rename_i request next hconsole
    cases hstep
    exact rounds_goOn ((hclient _ hconsole).2 ())
  · rename_i next hconsole
    cases hstep
    exact rounds_goOn ((hclient _ hconsole).2 ())
  · cases hstep

/-- Only the console thread itself moves on. -/
theorem console_of_step (hstep : client.step action = some next)
    (haction : action ≠ .console) :
    next.console = client.console ∧ next.stdin = client.stdin ∧
      next.composed = client.composed := by
  cases action with
  | console => exact (haction rfl).elim
  | up | down | shutdown =>
      cases hstep
      exact ⟨rfl, rfl, rfl⟩
  | flush =>
      change client.flushStep = some next at hstep
      unfold flushStep at hstep
      split at hstep
      · cases hstep
      · cases hstep
        split <;> exact ⟨rfl, rfl, rfl⟩
  | message msg =>
      cases hstep
      cases msg with
      | loginResp resp =>
          simp only [onServerMessage]
          split <;> exact ⟨rfl, rfl, rfl⟩
      | _ => exact ⟨rfl, rfl, rfl⟩

theorem rounds_of_run {stdin : List UInt8} {actions : List Action}
    (hrun : Runs.runFrom step { stdin := stdin } actions = some client) :
    Rounds client := by
  refine Runs.invariant_of_run (by simp [Rounds]) ?_ hrun
  intro client action next hstep hclient
  by_cases haction : action = .console
  · subst haction
    exact hclient.consoleStep hstep
  · unfold Rounds
    rw [(console_of_step hstep haction).1]
    exact hclient

/-! ## Once the input has ended -/

/-- The console thread is in a round that will be followed by another one,
and what it may still compose stays below the bound. -/
structure Spent (bound : ℕ) (client : ChatClient) : Prop where
  stdin : client.stdin = []
  round : ∃ budget rest, client.console = .round rest ∧
    Spends budget rest ∧ client.composed.length + budget ≤ bound

theorem Spent.consoleStep (hclient : Spent bound client) :
    ∃ next, client.consoleStep = some next ∧ Spent bound next := by
  obtain ⟨hstdin, budget, rest, hconsole, hspends, hbound⟩ := hclient
  unfold ChatClient.consoleStep
  rw [hconsole]
  cases rest with
  | ret goesOn =>
      cases hspends
      refine ⟨_, rfl, hstdin, 0, menu, rfl, spends_menu, ?_⟩
      show client.composed.length + 0 ≤ bound
      omega
  | call call rest =>
      cases call with
      | isLoggedIn =>
          exact ⟨_, rfl, hstdin, budget, _, rfl, hspends client.loggedIn,
            hbound⟩
      | readLine =>
          rw [hstdin]
          exact ⟨_, rfl, rfl, budget, _, rfl, hspends, hbound⟩
      | send request =>
          obtain ⟨hbudget, hspends⟩ := hspends
          refine ⟨_, rfl, ?_, budget - 1, _, rfl, hspends, ?_⟩
          · cases request <;> exact hstdin
          · have hcomposed : (client.send request).composed.length =
                client.composed.length + 1 := by
              cases request <;> rfl
            show (client.send request).composed.length + (budget - 1) ≤ bound
            omega
      | quit => exact hspends.elim

theorem Spent.step (hclient : Spent bound client)
    (hstep : client.step action = some next) : Spent bound next := by
  by_cases haction : action = .console
  · subst haction
    obtain ⟨after, hafter, hspent⟩ := hclient.consoleStep
    have hsame : after = next := Option.some.inj (hafter.symm.trans hstep)
    exact hsame ▸ hspent
  · obtain ⟨hconsole, hstdin, hcomposed⟩ := console_of_step hstep haction
    obtain ⟨hempty, budget, rest, hround, hspends, hbound⟩ := hclient
    exact ⟨hstdin.trans hempty, budget, rest, hconsole.trans hround,
      hspends, hcomposed ▸ hbound⟩

/-- At the end of the input, unless the user has just chosen to leave: the
console thread never ends and never waits, whatever becomes of the
connection, and composes one more request at most. -/
theorem end_of_input {stdin : List UInt8} {actions : List Action}
    (hrun : Runs.runFrom step { stdin := stdin } actions = some client)
    (hempty : client.stdin = []) {rest : ConsoleProg Bool}
    (hround : client.console = .round rest) (hstays : ¬ Leaving rest)
    {later : List Action} {after : ChatClient}
    (hlater : Runs.runFrom step client later = some after) :
    after.console ≠ .ended ∧ (∃ next, after.consoleStep = some next) ∧
      after.composed.length ≤ client.composed.length + 1 := by
  have hsettles : Settles rest := (rounds_of_run hrun rest hround).here
  have hstart : Spent (client.composed.length + 1) client :=
    ⟨hempty, 1, rest, hround, hsettles.resolve_left hstays, Nat.le_refl _⟩
  have hafter := Runs.invariant_of_run hstart
    (fun _ _ _ hstep hclient => hclient.step hstep) hlater
  obtain ⟨next, hstep, _⟩ := hafter.consoleStep
  obtain ⟨_, budget, rest, hconsole, _, hbound⟩ := hafter
  refine ⟨?_, ⟨next, hstep⟩, by omega⟩
  rw [hconsole]
  simp

/-- Ann's input ends after her password; the server accepts the login, and
the connection breaks. -/
theorem end_of_input_annTypes : ∃ client after,
    Runs.runFrom step annTypes annSends = some client ∧
      Runs.runFrom step client
          [.message (.loginResp { ok := true }), .console, .console,
            .console, .console, .down] = some after ∧
      after.console ≠ .ended ∧ ∃ next, after.consoleStep = some next := by
  obtain ⟨client, rest, hrun, hempty, hround, hstays, after, hlater⟩ :
      ∃ client rest, Runs.runFrom step annTypes annSends = some client ∧
        client.stdin = [] ∧ client.console = .round rest ∧ ¬ Leaving rest ∧
        ∃ after, Runs.runFrom step client
          [.message (.loginResp { ok := true }), .console, .console,
            .console, .console, .down] = some after :=
    ⟨_, .ret true, rfl, rfl, rfl, by simp [Leaving], _, rfl⟩
  obtain ⟨hended, hstep, _⟩ :=
    end_of_input hrun hempty hround hstays hlater
  exact ⟨client, after, hrun, hlater, hended, hstep⟩

end ChatClient

end MuduoChat
