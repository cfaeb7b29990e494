import MuduoChat.ChatCodecStreams
import MuduoChat.RecallAudience
import MuduoChat.WireMessages

/-!
# Do the replies fit in a frame?

The server refuses a request of more than 65536 bytes and the client refuses
such a reply, but nothing looks at the size of a reply before it is sent.  A
relayed message is larger than its request by the sender's uid, the message
identifier and the timestamp; a friend list grows with the friends.
-/

namespace MuduoChat

open WireFormat

/-- Protobuf does not serialize a message of 2 GiB; the result is then left
empty and sent all the same. -/
def ChatCodec.serializeServerMessage (msg : ServerMessage) : Bytes :=
  if msg.serialize.length ≤ 2 ^ 31 - 1 then msg.serialize else []

namespace ServerMessage

variable {msg : ServerMessage}

/-- The message is not too long for a frame, and a client that finds its frame
at the head of the input hands it over and goes on with what follows. -/
def ReachesClient (server client : ByteOrder) (msg : ServerMessage) : Prop :=
  msg.serialize.length ≤ maxPayload ∧
    ∀ rest payloads residual,
      Reads (ChatClient.onMessage client) rest payloads residual →
      Reads (ChatClient.onMessage client)
        (ChatCodec.sendServerMessage server
          (ChatCodec.serializeServerMessage msg) ++ rest)
        (msg.serialize :: payloads) residual

theorem reads_unique
    {loop : Buffer → Except BufferFault (List CodecCall × Buffer)}
    {bytes : Bytes} {first second : List Bytes}
    {firstRest secondRest : Bytes}
    (hfirst : Reads loop bytes first firstRest)
    (hsecond : Reads loop bytes second secondRest) :
    first = second ∧ firstRest = secondRest := by
  obtain ⟨firstCalls, hfirstLoop, rfl⟩ := hfirst
  obtain ⟨secondCalls, hsecondLoop, rfl⟩ := hsecond
  rw [hfirstLoop] at hsecondLoop
  cases hsecondLoop
  exact ⟨rfl, rfl⟩

theorem reachesClient_iff (server client : ByteOrder) :
    msg.ReachesClient server client ↔ msg.serialize.length ≤ maxPayload := by
  constructor
  · exact fun hreaches => hreaches.1
  · intro hsize
    refine ⟨hsize, ?_⟩
    intro rest payloads residual hrest
    have hserialized : ChatCodec.serializeServerMessage msg = msg.serialize :=
      if_pos (by simp only [maxPayload] at hsize; omega)
    have hclient := ChatClient.onMessage_eq client
    have hsizes : ∀ payload ∈ [msg.serialize], payload.length ≤ maxPayload := by
      simpa using hsize
    have hframe := reads_frames hclient
      (ChatCodec.sendServerMessage_eq server) hsizes rest
    obtain ⟨rfl, rfl⟩ := reads_unique hrest (reads_of_eq (hclient rest))
    rw [hserialized]
    simpa using hframe

end ServerMessage

/-- The longest body of a reply that fits: its key takes two bytes and its
length three. -/
def maxBody : ℕ := 65531

theorem length_messageField_le_iff {number : ℕ} (hlow : 16 ≤ number)
    (hhigh : number < 2048) (body : List UInt8) :
    (messageField number body).length ≤ maxPayload ↔
      body.length ≤ maxBody := by
  have hbody : delimitedSize body.length ≤ 65531 + (2 + 1) ↔
      body.length ≤ 65531 :=
    delimitedSize_le_iff (by decide) (by decide)
  rw [length_messageField, length_key_two hlow hhigh (by decide), maxPayload,
    maxBody, ← hbody]
  omega

/-! ## Relayed messages -/

/-- The message relayed for a request: private when there is a recipient,
else to a room. -/
def relayed (sender recipient room content : String) (msgId : Int)
    (now : ℕ) : ServerMessage :=
  if recipient ≠ "" then
    ServerReplies.privateChat sender recipient content msgId now
  else ServerReplies.roomChat sender room content msgId now

def relaySize (sender target content : String) (msgId : Int) (now : ℕ) : ℕ :=
  stringSize sender + stringSize target + stringSize content +
    uintSize (ServerReplies.wireId msgId) + uintSize (now % 2 ^ 64)

theorem length_relayed_le_iff {sender recipient room content : String}
    {msgId : Int} {now : ℕ} :
    (relayed sender recipient room content msgId now).serialize.length ≤
        maxPayload ↔
      relaySize sender (if recipient ≠ "" then recipient else room) content
        msgId now ≤ maxBody := by
  have hwireId : ServerReplies.wireId msgId % 2 ^ 64 =
      ServerReplies.wireId msgId :=
    Nat.mod_eq_of_lt (BitVec.isLt _)
  unfold relayed
  split_ifs with hrecipient
  · simp only [ServerReplies.privateChat, ServerMessage.serialize]
    rw [length_messageField_le_iff (by decide) (by decide),
      ChatMessage.length_serialize, hwireId]
    simp [relaySize]
  · simp only [ServerReplies.roomChat, ServerMessage.serialize]
    rw [length_messageField_le_iff (by decide) (by decide),
      ChatMessage.length_serialize, hwireId]
    simp [relaySize]

namespace ChatServer

/-- The chat messages sent in between. -/
def chatsSent (before after : ChatServer) : Set ServerMessage :=
  { msg | ∃ conn chat, msg = .chatMsg chat ∧
    .sent conn msg ∈ eventsSince before after }

/-- A private message is at least echoed; a message to a room needs a member
with a connection. -/
def Relays (server : ChatServer) (recipient room : String)
    (result : SendMessageResult) : Prop :=
  result.success = true ∧
    (recipient ≠ "" ∨ (server.audience recipient room).Nonempty)

variable {server after : ChatServer}

theorem mem_chatsSent {events : List Event}
    (hhistory : after.history = events ++ server.history)
    {msg : ServerMessage} :
    msg ∈ chatsSent server after ↔
      ∃ conn chat, msg = .chatMsg chat ∧ .sent conn msg ∈ events := by
  unfold chatsSent
  rw [eventsSince_of_append hhistory]
  rfl

theorem mem_chatsSent_sendAll {outgoing : List Outgoing}
    {msg : ServerMessage} :
    msg ∈ chatsSent server (server.sendAll outgoing) ↔
      ∃ conn chat, msg = .chatMsg chat ∧ (conn, msg) ∈ outgoing := by
  rw [mem_chatsSent (sendAll_history server outgoing)]
  simp only [List.mem_reverse, List.mem_map, Event.sent.injEq]
  constructor
  · rintro ⟨conn, chat, hchat, out, hout, rfl, rfl⟩
    exact ⟨out.1, chat, hchat, hout⟩
  · rintro ⟨conn, chat, hchat, hout⟩
    exact ⟨conn, chat, hchat, (conn, msg), hout, rfl, rfl⟩

theorem mem_chatsSent_sendError {conn : Conn} {code : ℕ} {reason : String}
    (hgrown : server.history <:+ after.history) {msg : ServerMessage} :
    msg ∈ chatsSent server (after.sendError conn code reason) ↔
      msg ∈ chatsSent server after := by
  obtain ⟨events, hevents⟩ := hgrown
  have herror : (after.sendError conn code reason).history =
      (.sent conn (ServerReplies.errorReply code reason) :: events) ++
        server.history := by
    rw [List.cons_append, hevents]
    rfl
  rw [mem_chatsSent herror, mem_chatsSent hevents.symm]
  constructor
  · rintro ⟨target, chat, rfl, hsent⟩
    obtain hnone | hsent := List.mem_cons.mp hsent
    · cases hnone
    · exact ⟨target, chat, rfl, hsent⟩
  · rintro ⟨target, chat, hchat, hsent⟩
    exact ⟨target, chat, hchat, List.mem_cons_of_mem _ hsent⟩

/-- The recipient is sent the message that is echoed. -/
theorem mem_chatsSent_echo {conn : Conn} {sender recipient content : String}
    {msgId : Int} {now : ℕ} {msg : ServerMessage} :
    msg ∈ chatsSent server
        ((server.sendAll (ServerReplies.privateRelay server.sessions sender
          recipient content msgId now)).send conn
          (ServerReplies.privateChat sender recipient content msgId now)) ↔
      msg = ServerReplies.privateChat sender recipient content msgId now := by
  rw [mem_chatsSent (history_echoed server _ conn _)]
  constructor
  · rintro ⟨target, chat, hchat, hsent⟩
    simp only [List.mem_cons, Event.sent.injEq, List.mem_reverse,
      List.mem_map] at hsent
    obtain ⟨-, hmsg⟩ | ⟨out, hout, rfl, rfl⟩ := hsent
    · exact hmsg
    · exact (mem_toUser.mp hout).2
  · rintro rfl
    exact ⟨conn, _, rfl, List.mem_cons_self⟩

theorem mem_chatsSent_toMembers {recipient room sender content : String}
    {msgId : Int} {now : ℕ} {msg : ServerMessage}
    (hrecipient : ¬ recipient ≠ "") (hroom : room ≠ "") :
    msg ∈ chatsSent server
        (server.sendAll (ServerReplies.toMembers server.sessions
          (server.rooms.getRoomMembers room)
          (ServerReplies.roomChat sender room content msgId now))) ↔
      (server.audience recipient room).Nonempty ∧
        msg = ServerReplies.roomChat sender room content msgId now := by
  rw [mem_chatsSent_sendAll]
  simp only [mem_toMembers, audience, if_neg hrecipient, if_pos hroom]
  constructor
  · rintro ⟨conn, chat, -, hmember, hmsg⟩
    exact ⟨⟨conn, hmember⟩, hmsg⟩
  · rintro ⟨⟨conn, hmember⟩, rfl⟩
    exact ⟨conn, _, rfl, hmember, rfl⟩

theorem mem_chatsSent_chatDone (request now : ℕ) (conn : Conn)
    (sender recipient room content : String) (result : SendMessageResult)
    {msg : ServerMessage} :
    msg ∈ chatsSent server (server.chatDone request conn sender recipient room
        content result now) ↔
      server.Relays recipient room result ∧
        msg = relayed sender recipient room content result.msgId now := by
  have hself : server.history = [] ++ server.history := rfl
  unfold chatDone Relays relayed
  by_cases hsuccess : result.success = true
  · rw [if_neg (by simp [hsuccess]), and_iff_right hsuccess]
    by_cases hrecipient : recipient ≠ ""
    · rw [if_pos hrecipient, if_pos hrecipient,
        and_iff_right (Or.inl hrecipient)]
      cases hroute : server.sessions.getConnection recipient with
      | none =>
          exact (mem_chatsSent_sendError
            ⟨_, (history_echoed server _ conn _).symm⟩).trans
              mem_chatsSent_echo
      | some route => exact mem_chatsSent_echo
    · rw [if_neg hrecipient, if_neg hrecipient, or_iff_right hrecipient]
      by_cases hroom : room ≠ ""
      · rw [if_pos hroom]
        exact mem_chatsSent_toMembers hrecipient hroom
      · rw [if_neg hroom, mem_chatsSent hself]
        simp [audience, hrecipient, hroom]
  · rw [if_pos (by simpa using hsuccess),
      mem_chatsSent_sendError List.suffix_rfl, mem_chatsSent hself]
    simp [hsuccess]

end ChatServer

/-! ## Friend lists -/

/-- The size of a friend list's body.  Each friend is written twice, as uid
and as nickname. -/
def friendListSize (manager : SessionManager) (conn : Conn) : ℕ :=
  ((manager.getFriends (manager.getUid conn)).elems.map fun uid =>
    1 + delimitedSize (2 * stringSize uid +
      if manager.isOnline uid then 2 else 0)).sum

theorem length_friendList_le_iff (manager : SessionManager) (conn : Conn) :
    (ServerReplies.friendList manager conn).serialize.length ≤ maxPayload ↔
      friendListSize manager conn ≤ maxBody := by
  have hentries : ∀ uid,
      (ServerReplies.friendInfo manager uid).serialize.length =
        2 * stringSize uid + if manager.isOnline uid then 2 else 0 := by
    intro uid
    rw [FriendInfo.length_serialize, two_mul]
    rfl
  simp only [ServerReplies.friendList, ServerMessage.serialize]
  rw [length_messageField_le_iff (by decide) (by decide),
    length_serializeFriends, List.map_map, friendListSize]
  simp only [Function.comp_def, hentries]

/-! ## Both kinds of reply -/

namespace ChatServer

/-- What the callback of `handleChatMessage` sends for `msg` reaches its
clients when the relayed message is small enough, and a friend list when the
friends are few and short enough; neither request nor store bounds either. -/
theorem replies_reach_iff (host client : ByteOrder) (server : ChatServer)
    (request now : ℕ) (conn : Conn) (uid : String) (msg : ChatMessage)
    (result : SendMessageResult) (asker : Conn) :
    ((∀ reply ∈ chatsSent server (server.chatDone request conn uid
          msg.recipient msg.room msg.content result now),
        reply.ReachesClient host client) ↔
      (server.Relays msg.recipient msg.room result →
        relaySize uid
          (if msg.recipient ≠ "" then msg.recipient else msg.room)
          msg.content result.msgId now ≤ maxBody)) ∧
    ((ServerReplies.friendList server.sessions asker).ReachesClient host
        client ↔
      friendListSize server.sessions asker ≤ maxBody) := by
  constructor
  · simp only [mem_chatsSent_chatDone, ServerMessage.reachesClient_iff]
    rw [← length_relayed_le_iff]
    constructor
    · exact fun hreach hrelays => hreach _ ⟨hrelays, rfl⟩
    · rintro hfits reply ⟨hrelays, rfl⟩
      exact hfits hrelays
  · rw [ServerMessage.reachesClient_iff, length_friendList_le_iff]

/-! ### A request that fills its frame -/

def longMessage (count : ℕ) : ChatMessage :=
  { recipient := "bob", content := "".pushn 'a' count }

theorem utf8ByteSize_longMessage (count : ℕ) :
    (longMessage count).content.utf8ByteSize = count := by
  unfold longMessage
  induction count with
  | zero => rfl
  | succ count ih =>
      simp only [String.pushn_eq_repeat_push] at ih ⊢
      rw [Nat.repeat, String.utf8ByteSize_push, ih]
      rfl

theorem stringSize_longMessage {count : ℕ} (hlow : 128 ^ 2 ≤ count)
    (hhigh : count < 128 ^ 3) :
    stringSize (longMessage count).content = count + 4 := by
  have hsize := utf8ByteSize_longMessage count
  have hnonempty : (longMessage count).content ≠ "" := by
    intro hempty
    rw [hempty] at hsize
    simp only [String.utf8ByteSize_empty] at hsize
    omega
  have hatLeast : varintSize (128 ^ 2) ≤ varintSize count :=
    varintSize_mono hlow
  have hatMost : varintSize count ≤ 2 + 1 := varintSize_le hhigh
  rw [varintSize_pow] at hatLeast
  rw [stringSize, if_neg hnonempty, hsize, delimitedSize]
  omega

theorem stringSize_bob : stringSize "bob" = 5 := by
  rw [stringSize, if_neg (by decide), delimitedSize,
    varintSize_of_lt (by decide)]
  rfl

/-- The request fills its frame to the last byte, so that the echo, with
sender, identifier and timestamp added, never reaches its client. -/
theorem replies_reach_fails_longMessage :
    ((Envelope.chatMsg (longMessage 65522)).serialize "").length ≤
      maxPayload ∧
    "alice".utf8ByteSize ≤ 64 ∧
    (longMessage 65522).content.utf8ByteSize ≤ 65535 ∧
    ∀ (server : ChatServer) (conn : Conn),
      ∃ reply ∈ chatsSent server (server.chatDone 0 conn "alice"
          (longMessage 65522).recipient (longMessage 65522).room
          (longMessage 65522).content { success := true, msgId := 1 }
          1700000000000000),
        ¬ reply.ReachesClient .little .little := by
  have hcontent : stringSize (longMessage 65522).content = 65522 + 4 :=
    stringSize_longMessage (by decide) (by decide)
  refine ⟨?_, by decide, ?_, ?_⟩
  · show (messageField 20 (longMessage 65522).serialize).length ≤ maxPayload
    rw [length_messageField_le_iff (by decide) (by decide),
      ChatMessage.length_serialize, hcontent]
    show stringSize "" + stringSize "bob" + stringSize "" + (65522 + 4) +
      uintSize 0 + uintSize 0 + uintSize 0 + 0 ≤ maxBody
    rw [stringSize_bob, stringSize_empty, uintSize_zero, maxBody]
  · rw [utf8ByteSize_longMessage]
    decide
  · intro server conn
    refine ⟨relayed "alice" "bob" "" (longMessage 65522).content 1
      1700000000000000,
      (mem_chatsSent_chatDone ..).mpr ⟨⟨rfl, .inl (by decide)⟩, rfl⟩, ?_⟩
    have hsender : stringSize "alice" = 1 + (varintSize 5 + 5) := rfl
    rw [ServerMessage.reachesClient_iff, length_relayed_le_iff,
      if_pos (by decide), relaySize, maxBody, hsender, stringSize_bob,
      hcontent]
    omega

end ChatServer

end MuduoChat
