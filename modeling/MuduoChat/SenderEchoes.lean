import MuduoChat.RecallAudience

/-!
# What a sender hears of a message

The callback of a chat message reports a failed store to its sender.  A
private message is relayed to the recipient and then echoed to the sender.  A
room message is only relayed: the sender gets it back as one of the members,
if they are one, and if the route of a member leads to the connection the
message came from.
-/

namespace MuduoChat

namespace ChatServer

/-- A chat message with this identifier, sent on the connection. -/
def isEcho (conn : Conn) (msgId : Int) : Event → Bool
  | .sent target (.chatMsg msg) =>
      target = conn && msg.msgId = ServerReplies.wireId msgId
  | _ => false

/-- The report that the message could not be stored. -/
def isStoreFailure (conn : Conn) : Event → Bool
  | .sent target (.error resp) =>
      target = conn && resp = { code := 3, reason := "store message failed" }
  | _ => false

/-- In between, exactly one of two things was sent on the connection: the
echo of the stored message, once, or the report that it was not stored. -/
def OutcomeLearned (before after : ChatServer) (conn : Conn)
    (msgId : Int) : Prop :=
  (eventsSince before after).countP (isEcho conn msgId) = 1 ∧
      (eventsSince before after).countP (isStoreFailure conn) = 0 ∨
    msgId ≤ 0 ∧ (eventsSince before after).countP (isEcho conn msgId) = 0 ∧
      (eventsSince before after).countP (isStoreFailure conn) = 1

/-- How many members of the room have the connection as their route. -/
def routedMembers (server : ChatServer) (room : String) (conn : Conn) : Nat :=
  (server.rooms.getRoomMembers room).elems.countP fun member =>
    server.sessions.getConnection member = some conn

/-- The message was not stored, or has a recipient whose route is another
connection, or goes to a room with exactly one member on the connection. -/
def EchoedOnce (server : ChatServer) (conn : Conn) (msgId : Int)
    (recipient room : String) : Prop :=
  msgId ≤ 0 ∨
    recipient ≠ "" ∧
      server.sessions.getConnection recipient ≠ some conn ∨
    recipient = "" ∧ room ≠ "" ∧ server.routedMembers room conn = 1

variable {server : ChatServer} {conn : Conn}
  {sender recipient room content : String} {msgId : Int} {now : Nat}

/-! ## Counting what a callback sends -/

theorem countP_sent_toMembers {members : List String} {msg : ServerMessage}
    {counted : Event → Bool}
    (hcounted : ∀ target, counted (.sent target msg) = decide (target = conn)) :
    ((members.flatMap fun member =>
        ServerReplies.toUser server.sessions member msg).map
          fun out => Event.sent out.1 out.2).countP counted =
      members.countP fun member =>
        server.sessions.getConnection member = some conn := by
  induction members with
  | nil => rfl
  | cons member rest ih =>
      rw [List.flatMap_cons, List.map_append, List.countP_append, ih,
        List.countP_cons, Nat.add_comm]
      congr 1
      unfold ServerReplies.toUser
      cases server.sessions.getConnection member with
      | none => rfl
      | some target => simp [hcounted]

theorem countP_sent_toMembers_zero {members : List String}
    {msg : ServerMessage} {counted : Event → Bool}
    (hcounted : ∀ target, counted (.sent target msg) = false) :
    ((members.flatMap fun member =>
        ServerReplies.toUser server.sessions member msg).map
          fun out => Event.sent out.1 out.2).countP counted = 0 := by
  rw [List.countP_eq_zero]
  intro event hevent
  obtain ⟨out, hout, rfl⟩ := List.mem_map.mp hevent
  obtain ⟨member, _, hmember⟩ := List.mem_flatMap.mp hout
  rw [(mem_toUser.mp hmember).2, hcounted]
  exact Bool.false_ne_true

/-- A relay to one user. -/
theorem countP_sent_toUser {uid : String} {msg : ServerMessage}
    {counted : Event → Bool}
    (hcounted : ∀ target, counted (.sent target msg) = decide (target = conn)) :
    ((ServerReplies.toUser server.sessions uid msg).map
        fun out => Event.sent out.1 out.2).countP counted =
      if server.sessions.getConnection uid = some conn then 1 else 0 := by
  unfold ServerReplies.toUser
  cases server.sessions.getConnection uid with
  | none => rfl
  | some target => simp [hcounted, List.countP_cons]

theorem outcomeLearned_of_history {after : ChatServer} {events : List Event}
    (hhistory : after.history = events ++ server.history) (hid : 0 < msgId) :
    OutcomeLearned server after conn msgId ↔
      events.countP (isEcho conn msgId) = 1 ∧
        events.countP (isStoreFailure conn) = 0 := by
  unfold OutcomeLearned
  rw [eventsSince_of_append hhistory]
  simp [Int.not_le.mpr hid]

theorem isEcho_private (target : Conn) :
    isEcho conn msgId (.sent target
      (ServerReplies.privateChat sender recipient content msgId now)) =
        decide (target = conn) := by
  simp [isEcho, ServerReplies.privateChat]

theorem isEcho_room (target : Conn) :
    isEcho conn msgId (.sent target
      (ServerReplies.roomChat sender room content msgId now)) =
        decide (target = conn) := by
  simp [isEcho, ServerReplies.roomChat]

/-! ## The four ends of the callback -/

theorem outcomeLearned_failed (hid : msgId ≤ 0) :
    OutcomeLearned server (server.sendError conn 3 "store message failed")
      conn msgId := by
  refine .inr ⟨hid, ?_⟩
  have hevents : eventsSince server
      (server.sendError conn 3 "store message failed") =
        [.sent conn (ServerReplies.errorReply 3 "store message failed")] :=
    eventsSince_of_append rfl
  rw [hevents]
  simp [isEcho, isStoreFailure, ServerReplies.errorReply]

/-- The echo is sent besides the relay: if the recipient's route is the
sender's own connection, the connection gets the message twice. -/
theorem outcomeLearned_private (hid : 0 < msgId) (hrecipient : recipient ≠ "")
    (request : Nat) :
    OutcomeLearned server (server.chatDone request conn sender recipient room
        content { success := true, msgId := msgId } now) conn msgId ↔
      server.sessions.getConnection recipient ≠ some conn := by
  let echo := ServerReplies.privateChat sender recipient content msgId now
  let relayed := (ServerReplies.privateRelay server.sessions sender recipient
    content msgId now).map fun out => Event.sent out.1 out.2
  have hechoes : relayed.countP (isEcho conn msgId) =
      if server.sessions.getConnection recipient = some conn then 1 else 0 :=
    countP_sent_toUser isEcho_private
  have hfailures : relayed.countP (isStoreFailure conn) = 0 := by
    rw [List.countP_eq_zero]
    intro event hevent
    obtain ⟨out, hout, rfl⟩ := List.mem_map.mp hevent
    rw [(mem_toUser.mp hout).2]
    exact Bool.false_ne_true
  have hecho : isEcho conn msgId (.sent conn echo) = true :=
    (isEcho_private conn).trans (decide_eq_true rfl)
  have hnoFailure : isStoreFailure conn (.sent conn echo) = false := rfl
  unfold chatDone
  simp only [Bool.not_true, Bool.false_eq_true, if_false, if_pos hrecipient]
  cases hconn : server.sessions.getConnection recipient with
  | some target =>
      rw [outcomeLearned_of_history (history_echoed server _ conn echo) hid,
        List.countP_cons_of_pos hecho, List.countP_reverse, hechoes,
        List.countP_cons_of_neg (by rw [hnoFailure]; exact Bool.false_ne_true),
        List.countP_reverse, hfailures, hconn]
      simp
  | none =>
      -- the report that the recipient is offline is not about the store
      have hhistory := congrArg
        (List.cons (Event.sent conn (ServerReplies.errorReply 3
          "user offline")))
        (history_echoed server (ServerReplies.privateRelay server.sessions
          sender recipient content msgId now) conn echo)
      rw [← List.cons_append] at hhistory
      rw [outcomeLearned_of_history hhistory hid,
        List.countP_cons_of_neg (by simp [isEcho, ServerReplies.errorReply]),
        List.countP_cons_of_pos hecho, List.countP_reverse, hechoes,
        List.countP_cons_of_neg
          (by simp [isStoreFailure, ServerReplies.errorReply]),
        List.countP_cons_of_neg (by rw [hnoFailure]; exact Bool.false_ne_true),
        List.countP_reverse, hfailures, hconn]
      simp

/-- The sender hears of a room message as often as a member of the room has
their connection. -/
theorem outcomeLearned_room (hid : 0 < msgId) (hroom : room ≠ "")
    (request : Nat) :
    OutcomeLearned server (server.chatDone request conn sender "" room
        content { success := true, msgId := msgId } now) conn msgId ↔
      server.routedMembers room conn = 1 := by
  unfold chatDone
  simp only [Bool.not_true, Bool.false_eq_true, if_false, ne_eq,
    not_true_eq_false, if_pos hroom]
  rw [outcomeLearned_of_history (sendAll_history server _) hid,
    List.countP_reverse, List.countP_reverse]
  unfold ServerReplies.toMembers routedMembers
  rw [countP_sent_toMembers isEcho_room,
    countP_sent_toMembers_zero fun _ => rfl]
  exact and_iff_left rfl

theorem not_outcomeLearned_nobody (hid : 0 < msgId) (request : Nat) :
    ¬ OutcomeLearned server (server.chatDone request conn sender "" ""
        content { success := true, msgId := msgId } now) conn msgId := by
  have hhistory : (server.chatDone request conn sender "" "" content
      { success := true, msgId := msgId } now).history =
        [] ++ server.history := rfl
  rw [outcomeLearned_of_history hhistory hid]
  rintro ⟨hecho, -⟩
  cases hecho

/-- Every chat message from a connection that is logged in becomes a task
that stores it.  Once the task's callback has run, on whatever the server is
by then, the sender knows the outcome if and only if the store failed or the
recipient or the members of the room bring the echo back exactly once. -/
theorem sender_learns_iff {msg : ChatMessage}
    (hauth : server.sessions.isAuthenticated conn = true) (request : Nat) :
    ∃ task,
      (server.onEnvelope request conn (.chatMsg msg)).queue =
        server.queue ++ [⟨request, task⟩] ∧
      ∀ nodeId log result, Prog.Reaches (task.program nodeId) log
          (.ret result) →
        ∃ (msgId : Int) (callback : Callback),
          log = [⟨.storeMessage (server.sessions.getUid conn) msg.recipient
            msg.room msg.content, msgId⟩] ∧
          result = some callback ∧
          ∀ (later : ChatServer) (now : Nat),
            OutcomeLearned later (later.runCallback request now callback)
                conn msgId ↔
              EchoedOnce later conn msgId msg.recipient msg.room := by
  refine ⟨.sendMessage conn (server.sessions.getUid conn) msg.recipient
    msg.room msg.content, ?_, ?_⟩
  · simp [onEnvelope, handleChatMessage, whenAuthenticated, hauth, runInPool]
  · intro nodeId log result hreaches
    obtain ⟨sent, first, second, rfl, hsend, hrest⟩ :=
      Prog.Reaches.bind_ret hreaches
    cases hrest
    obtain ⟨msgId, stored, rest, rfl, hstore, hdone⟩ :=
      Prog.Reaches.bind_ret hsend
    cases hstore with
    | step hstored =>
        cases hstored
        by_cases hid : msgId ≤ 0
        · rw [if_pos hid] at hdone
          cases hdone
          refine ⟨msgId, _, rfl, rfl, fun later now => ?_⟩
          exact iff_of_true (outcomeLearned_failed hid) (.inl hid)
        · rw [if_neg hid] at hdone
          cases hdone
          refine ⟨msgId, _, rfl, rfl, fun later now => ?_⟩
          have hpositive : 0 < msgId := Int.not_le.mp hid
          show OutcomeLearned later (later.chatDone ..) conn msgId ↔ _
          unfold EchoedOnce
          by_cases hrecipient : msg.recipient = ""
          · by_cases hroom : msg.room = ""
            · rw [hrecipient, hroom]
              refine iff_of_false (not_outcomeLearned_nobody hpositive _) ?_
              simp [hid]
            · rw [hrecipient, outcomeLearned_room hpositive hroom]
              simp [hid, hroom]
          · rw [outcomeLearned_private hpositive hrecipient]
            simp [hid, hrecipient]

/-- Alice writes to Bob, who is online. -/
theorem sender_learns_otherConnection :
    ∃ task callback,
      (threeUsers.onEnvelope 0 0 (.chatMsg
          { recipient := "bob", content := "hi" })).queue = [⟨0, task⟩] ∧
      Prog.Reaches (task.program "node-1")
        [⟨.storeMessage "alice" "bob" "" "hi", (1 : Int)⟩]
        (.ret (some callback)) ∧
      OutcomeLearned threeUsers (threeUsers.runCallback 0 0 callback) 0 1 := by
  obtain ⟨task, hqueue, hlearns⟩ := @sender_learns_iff threeUsers 0
    { recipient := "bob", content := "hi" } rfl 0
  cases hqueue
  have hreaches : Prog.Reaches (Task.program "node-1"
      (.sendMessage 0 "alice" "bob" "" "hi"))
      [⟨.storeMessage "alice" "bob" "" "hi", (1 : Int)⟩]
      (.ret (some (.chat 0 "alice" "bob" "" "hi"
        { success := true, msgId := 1 }))) := .step (.refl _)
  obtain ⟨msgId, callback, hlog, hcallback, hdone⟩ :=
    hlearns "node-1" _ _ hreaches
  cases hlog
  cases hcallback
  refine ⟨_, _, rfl, hreaches, (hdone threeUsers 0).mpr (.inr (.inl ?_))⟩
  exact ⟨by decide, by decide⟩

/-- Alice writes to herself: her connection gets the message twice.  Eve
writes to a room that has no members here: she gets nothing at all. -/
theorem sender_learns_fails_noteToSelf :
    ∃ toSelf toRoom,
      Runs.runFrom (step { threads := 1, loopOf := fun _ => 0 }) threeUsers
        [.receive 0 (.chatMsg { recipient := "alice", content := "hi" }),
          .start, .call 0 (.storeMessage "alice" "alice" "" "hi") (1 : Int),
          .finish 0, .callback 0 0] = some toSelf ∧
      ¬ OutcomeLearned threeUsers toSelf 0 1 ∧
      Runs.runFrom (step { threads := 1, loopOf := fun _ => 0 }) threeUsers
        [.receive 2 (.chatMsg { room := "lobby", content := "hi" }),
          .start, .call 0 (.storeMessage "eve" "" "lobby" "hi") (1 : Int),
          .finish 0, .callback 0 0] = some toRoom ∧
      ¬ OutcomeLearned threeUsers toRoom 2 1 := by
  refine ⟨_, _, rfl, ?_, rfl, ?_⟩
  · rintro (⟨hecho, -⟩ | ⟨hid, -⟩)
    · exact absurd hecho (by decide)
    · exact absurd hid (by decide)
  · rintro (⟨hecho, -⟩ | ⟨hid, -⟩)
    · exact absurd hecho (by decide)
    · exact absurd hid (by decide)

end ChatServer

end MuduoChat
