import MuduoChat.MySQLRepos
import MuduoChat.SqlTexts
import Mathlib.Tactic.CasesM

/-!
# The queries of the repositories

Every text that the friend, message, room and session repositories hand to
`mysql_query`, with the arguments of the methods in its holes.  String
arguments go through `escape`, integers through `std::to_string`.
-/

namespace MuduoChat

open SqlTexts

/-- A constructor for each query, after the method that sends it. -/
inductive RepoQuery (Value Number : Type) where
  | addFriendRequest (sender target message : Value)
  | respondFriendRequest (requester responder : Value) (status : Number)
  /-- The row in the other direction, when the request is accepted. -/
  | mirrorFriendRequest (requester responder : Value)
  | removeFriends (uid₁ uid₂ : Value)
  | getFriendList (uid : Value)
  | getPendingRequests (uid : Value)
  | findRoom (room : Value)
  | nextSeq (roomId : Number)
  /-- No room was found, or `to` is empty, where there is `none`. -/
  | storeMessage (seq : Number) (roomId : Option Number) (sender : Value)
      (recipient : Option Value) (content : Value)
  | getMessage (msgId : Number)
  | recallMessage (msgId : Number) (uid : Value)
  | addOfflineMessage (targetUid : Value) (msgId : Number)
  | getUndeliveredMessages (uid : Value)
  | markMessagesDelivered (uid : Value)
  | createRoom (name creator : Value)
  | getRoomByName (name : Value)
  | getRoomById (roomId : Number)
  | addRoomMember (roomId : Number) (uid : Value) (role : Number)
  | removeRoomMember (roomId : Number) (uid : Value)
  | getRoomMembers (roomId : Number)
  | getUserRooms (uid : Value)
  | createSession (uid token nodeId : Value) (ttlSeconds : Number)
  | getSessionByToken (token : Value)
  | revokeSession (token : Value)
  | revokeAllSessions (uid : Value)
  | updateSessionNode (token nodeId : Value)

namespace RepoQuery

variable {Value Number Other Count : Type}

/-- The text as the method concatenates it. -/
def sql : RepoQuery Value Number → List (Piece Value Number)
  | addFriendRequest sender target message =>
      [.text "INSERT IGNORE INTO friendships (requester_uid, target_uid, ",
        .text "status, message) VALUES ('", .literal sender, .text "', '",
        .literal target, .text "', 0, '", .literal message, .text "')"]
  | respondFriendRequest requester responder status =>
      [.text "UPDATE friendships SET status = ", .number status,
        .text " WHERE requester_uid = '", .literal requester,
        .text "' AND target_uid = '", .literal responder, .text "'"]
  | mirrorFriendRequest requester responder =>
      [.text "INSERT IGNORE INTO friendships (requester_uid, target_uid, ",
        .text "status) VALUES ('", .literal responder, .text "', '",
        .literal requester, .text "', 1)"]
  | removeFriends uid₁ uid₂ =>
      [.text "DELETE FROM friendships WHERE (requester_uid = '",
        .literal uid₁, .text "' AND target_uid = '", .literal uid₂,
        .text "')", .text " OR (requester_uid = '", .literal uid₂,
        .text "' AND target_uid = '", .literal uid₁, .text "')"]
  | getFriendList uid =>
      [.text "SELECT u.uid, u.nickname, u.email, u.avatar_url FROM users u ",
        .text "JOIN friendships f ON (f.requester_uid = '", .literal uid,
        .text "' AND f.target_uid = u.uid)", .text " WHERE f.status = 1",
        .text " UNION ",
        .text "SELECT u.uid, u.nickname, u.email, u.avatar_url FROM users u ",
        .text "JOIN friendships f ON (f.target_uid = '", .literal uid,
        .text "' AND f.requester_uid = u.uid)", .text " WHERE f.status = 1"]
  | getPendingRequests uid =>
      [.text "SELECT requester_uid FROM friendships WHERE target_uid = '",
        .literal uid, .text "' AND status = 0"]
  | findRoom room =>
      [.text "SELECT room_id FROM rooms WHERE name = '", .literal room,
        .text "'"]
  | nextSeq roomId =>
      [.text "SELECT COALESCE(MAX(seq), 0) + 1 FROM messages ",
        .text "WHERE room_id = ", .number roomId]
  | storeMessage seq roomId sender recipient content =>
      [.text "INSERT INTO messages (seq, room_id, from_uid, to_uid, content",
          .text ") VALUES (", .number seq, .text ", "] ++
        (match roomId with
          | some roomId => [.number roomId]
          | none => [.text "NULL"]) ++
        [.text ", '", .literal sender, .text "', "] ++
        (match recipient with
          | some recipient => [.text "'", .literal recipient, .text "'"]
          | none => [.text "NULL"]) ++
        [.text ", '", .literal content, .text "')"]
  | getMessage msgId =>
      [.text "SELECT m.msg_id, m.seq, m.from_uid, m.to_uid, ",
        .text "COALESCE(r.name, ''), m.content, m.recalled, m.created_at ",
        .text "FROM messages m LEFT JOIN rooms r ON m.room_id = r.room_id ",
        .text "WHERE m.msg_id = ", .number msgId]
  | recallMessage msgId uid =>
      [.text "UPDATE messages SET recalled = 1, recall_time = NOW() ",
        .text "WHERE msg_id = ", .number msgId, .text " AND from_uid = '",
        .literal uid, .text "'"]
  | addOfflineMessage targetUid msgId =>
      [.text "INSERT INTO offline_messages (target_uid, msg_id) VALUES ('",
        .literal targetUid, .text "', ", .number msgId, .text ")"]
  | getUndeliveredMessages uid =>
      [.text "SELECT m.msg_id, m.seq, m.from_uid, m.to_uid, ",
        .text "COALESCE(r.name, ''), ",
        .text "m.content, m.recalled, m.created_at ",
        .text "FROM offline_messages o ",
        .text "JOIN messages m ON o.msg_id = m.msg_id ",
        .text "LEFT JOIN rooms r ON m.room_id = r.room_id ",
        .text "WHERE o.target_uid = '", .literal uid,
        .text "' AND o.delivered = 0 ", .text "ORDER BY o.id ASC"]
  | markMessagesDelivered uid =>
      [.text "UPDATE offline_messages SET delivered = 1 ",
        .text "WHERE target_uid = '", .literal uid,
        .text "' AND delivered = 0"]
  | createRoom name creator =>
      [.text "INSERT INTO rooms (name, creator_uid) VALUES ('",
        .literal name, .text "', '", .literal creator, .text "')"]
  | getRoomByName name =>
      [.text "SELECT room_id, name, creator_uid, type FROM rooms ",
        .text "WHERE name = '", .literal name, .text "'"]
  | getRoomById roomId =>
      [.text "SELECT room_id, name, creator_uid, type FROM rooms ",
        .text "WHERE room_id = ", .number roomId]
  | addRoomMember roomId uid role =>
      [.text "INSERT IGNORE INTO room_members (room_id, uid, role) VALUES (",
        .number roomId, .text ", '", .literal uid, .text "', ",
        .number role, .text ")"]
  | removeRoomMember roomId uid =>
      [.text "DELETE FROM room_members WHERE room_id = ", .number roomId,
        .text " AND uid = '", .literal uid, .text "'"]
  | getRoomMembers roomId =>
      [.text "SELECT uid FROM room_members WHERE room_id = ",
        .number roomId]
  | getUserRooms uid =>
      [.text "SELECT r.room_id, r.name, r.creator_uid, r.type FROM rooms r ",
        .text "JOIN room_members rm ON r.room_id = rm.room_id ",
        .text "WHERE rm.uid = '", .literal uid, .text "'"]
  | createSession uid token nodeId ttlSeconds =>
      [.text "INSERT INTO sessions (uid, token, node_id, expired_at) ",
        .text "VALUES ('", .literal uid, .text "', '", .literal token,
        .text "', '", .literal nodeId, .text "', ",
        .text "DATE_ADD(NOW(), INTERVAL ", .number ttlSeconds,
        .text " SECOND)) ON DUPLICATE KEY UPDATE ",
        .text "node_id = VALUES(node_id), ",
        .text "expired_at = VALUES(expired_at), revoked = 0"]
  | getSessionByToken token =>
      [.text "SELECT uid, token, node_id, ip_address, created_at, ",
        .text "expired_at, revoked ", .text "FROM sessions WHERE token = '",
        .literal token, .text "' AND revoked = 0 AND expired_at > NOW()"]
  | revokeSession token =>
      [.text "UPDATE sessions SET revoked = 1 WHERE token = '",
        .literal token, .text "'"]
  | revokeAllSessions uid =>
      [.text "UPDATE sessions SET revoked = 1 WHERE uid = '", .literal uid,
        .text "'"]
  | updateSessionNode token nodeId =>
      [.text "UPDATE sessions SET node_id = '", .literal nodeId,
        .text "' WHERE token = '", .literal token, .text "'"]

def map (onValue : Value → Other) (onNumber : Number → Count) :
    RepoQuery Value Number → RepoQuery Other Count
  | addFriendRequest sender target message =>
      addFriendRequest (onValue sender) (onValue target) (onValue message)
  | respondFriendRequest requester responder status =>
      respondFriendRequest (onValue requester) (onValue responder)
        (onNumber status)
  | mirrorFriendRequest requester responder =>
      mirrorFriendRequest (onValue requester) (onValue responder)
  | removeFriends uid₁ uid₂ => removeFriends (onValue uid₁) (onValue uid₂)
  | getFriendList uid => getFriendList (onValue uid)
  | getPendingRequests uid => getPendingRequests (onValue uid)
  | findRoom room => findRoom (onValue room)
  | nextSeq roomId => nextSeq (onNumber roomId)
  | storeMessage seq roomId sender recipient content =>
      storeMessage (onNumber seq) (roomId.map onNumber) (onValue sender)
        (recipient.map onValue) (onValue content)
  | getMessage msgId => getMessage (onNumber msgId)
  | recallMessage msgId uid => recallMessage (onNumber msgId) (onValue uid)
  | addOfflineMessage targetUid msgId =>
      addOfflineMessage (onValue targetUid) (onNumber msgId)
  | getUndeliveredMessages uid => getUndeliveredMessages (onValue uid)
  | markMessagesDelivered uid => markMessagesDelivered (onValue uid)
  | createRoom name creator => createRoom (onValue name) (onValue creator)
  | getRoomByName name => getRoomByName (onValue name)
  | getRoomById roomId => getRoomById (onNumber roomId)
  | addRoomMember roomId uid role =>
      addRoomMember (onNumber roomId) (onValue uid) (onNumber role)
  | removeRoomMember roomId uid =>
      removeRoomMember (onNumber roomId) (onValue uid)
  | getRoomMembers roomId => getRoomMembers (onNumber roomId)
  | getUserRooms uid => getUserRooms (onValue uid)
  | createSession uid token nodeId ttlSeconds =>
      createSession (onValue uid) (onValue token) (onValue nodeId)
        (onNumber ttlSeconds)
  | getSessionByToken token => getSessionByToken (onValue token)
  | revokeSession token => revokeSession (onValue token)
  | revokeAllSessions uid => revokeAllSessions (onValue uid)
  | updateSessionNode token nodeId =>
      updateSessionNode (onValue token) (onValue nodeId)

theorem sql_map (onValue : Value → Other) (onNumber : Number → Count)
    (query : RepoQuery Value Number) :
    (query.map onValue onNumber).sql =
      query.sql.map (Piece.map onValue onNumber) := by
  cases query with
  | storeMessage seq roomId sender recipient content =>
      cases roomId <;> cases recipient <;> rfl
  | _ => rfl

/-- The query without its arguments: which method sends it and, for
`storeMessage`, whether there is a room and a recipient. -/
def method (query : RepoQuery Value Number) : RepoQuery Unit Unit :=
  query.map (fun _ => ()) fun _ => ()

/-- The tokens of a method, with holes for its arguments. -/
def skeletonOf (method : RepoQuery Unit Unit) : List (Slot Unit Unit) :=
  (skeleton method.sql).getD []

theorem isSome_skeleton_method (method : RepoQuery Unit Unit) :
    (skeleton method.sql).isSome := by
  cases method <;> casesm* Unit, Option Unit <;> decide +kernel

theorem nulFree_method (method : RepoQuery Unit Unit) :
    method.sql.all Piece.NulFree = true := by
  cases method <;> casesm* Unit, Option Unit <;> decide +kernel

theorem nulFree (query : RepoQuery Value Number) :
    query.sql.all Piece.NulFree = true := by
  have hmethod := nulFree_method query.method
  rw [method, sql_map, List.all_map] at hmethod
  rw [← hmethod]
  congr 1
  funext piece
  cases piece <;> rfl

theorem skeleton_sql (query : RepoQuery Value Number) :
    ∃ slots, skeleton query.sql = some slots ∧
      slots.map (Slot.map (fun _ => ()) fun _ => ()) =
        skeletonOf query.method := by
  have hmethod : skeleton query.method.sql =
      (skeleton query.sql).map
        (List.map (Slot.map (fun _ => ()) fun _ => ())) := by
    rw [method, sql_map, skeleton_map]
  obtain ⟨slots, hslots⟩ := Option.isSome_iff_exists.mp (by
    have hsome := isSome_skeleton_method query.method
    rwa [hmethod, Option.isSome_map] at hsome)
  refine ⟨slots, hslots, ?_⟩
  rw [skeletonOf, hmethod, hslots]
  rfl

end RepoQuery

/-! ## The statements behind the queries -/

section Statements

/-- What a query asks the database for.  The message of a friend request is
stored and never read. -/
def RepoQuery.statement : RepoQuery String Int → Statement
  | .addFriendRequest sender target _ =>
      .insertIgnoreFriendship sender target 0
  | .respondFriendRequest requester responder status =>
      .updateFriendshipStatus status.toNat requester responder
  | .mirrorFriendRequest requester responder =>
      .insertIgnoreFriendship responder requester 1
  | .removeFriends uid₁ uid₂ => .deleteFriendships uid₁ uid₂
  | .getFriendList uid => .selectFriends uid
  | .getPendingRequests uid => .selectPendingRequesters uid
  | .findRoom room => .selectRoomId room
  | .nextSeq roomId => .selectNextSeq roomId
  | .storeMessage seq roomId sender recipient content =>
      .insertMessage seq roomId sender recipient content
  | .getMessage msgId => .selectMessage msgId
  | .recallMessage msgId uid => .updateRecalled msgId uid
  | .addOfflineMessage targetUid msgId =>
      .insertOfflineMessage targetUid msgId
  | .getUndeliveredMessages uid => .selectUndelivered uid
  | .markMessagesDelivered uid => .updateDelivered uid
  | .createRoom name creator => .insertRoom name creator
  | .getRoomByName name => .selectRoomByName name
  | .getRoomById roomId => .selectRoomById roomId
  | .addRoomMember roomId uid role => .insertIgnoreRoomMember roomId uid role
  | .removeRoomMember roomId uid => .deleteRoomMember roomId uid
  | .getRoomMembers roomId => .selectRoomMembers roomId
  | .getUserRooms uid => .selectUserRooms uid
  | .createSession uid token nodeId ttlSeconds =>
      .insertSession uid token nodeId ttlSeconds
  | .getSessionByToken token => .selectSession token
  | .revokeSession token => .updateRevokedByToken token
  | .revokeAllSessions uid => .updateRevokedByUid uid
  | .updateSessionNode token nodeId => .updateSessionNode token nodeId

/-- The statement is the one of a query. -/
def Written : DbCall → Prop
  | .query statement => ∃ query : RepoQuery String Int,
      query.statement = statement
  | _ => True

open Prog

variable {α : Type}

theorem written_query (query : RepoQuery String Int) {unavailable : α}
    {finish : Option query.statement.Result → α} :
    (withConnection unavailable
      (mysqlQuery query.statement >>= fun result =>
        pure (finish result))).OnlyCalls Written := by
  have hwritten : Written (.query query.statement) := ⟨query, rfl⟩
  exact onlyCalls_withQuery trivial trivial hwritten

/-- The friend repository sends the statements of its queries. -/
theorem written_friendRepo (uid other message : String) (accepted : Bool) :
    (MySQLFriendRepo.addFriendRequest uid other message).OnlyCalls Written ∧
    (MySQLFriendRepo.respondFriendRequest uid other accepted).OnlyCalls
      Written ∧
    (MySQLFriendRepo.removeFriends uid other).OnlyCalls Written ∧
    (MySQLFriendRepo.getFriendList uid).OnlyCalls Written ∧
    (MySQLFriendRepo.getPendingRequests uid).OnlyCalls Written := by
  refine ⟨written_query (.addFriendRequest uid other message), ?_,
    written_query (.removeFriends uid other),
    written_query (.getFriendList uid),
    written_query (.getPendingRequests uid)⟩
  refine MySQLFriendRepo.onlyCalls_respondFriendRequest trivial trivial
    ⟨.respondFriendRequest uid other (if accepted then 1 else 2), ?_⟩
    fun _ => ⟨.mirrorFriendRequest uid other, rfl⟩
  cases accepted <;> rfl

theorem written_storeMessage (sender recipient room content : String) :
    (MySQLMessageRepo.storeMessage sender recipient room content).OnlyCalls
      Written :=
  MySQLMessageRepo.onlyCalls_storeMessage trivial trivial
    ⟨.findRoom room, rfl⟩ (fun roomId => ⟨.nextSeq roomId, rfl⟩)
    fun seq _ => ⟨.storeMessage seq _ sender _ content, rfl⟩

/-- The message repository sends the statements of its queries. -/
theorem written_messageRepo (msgId : Int) (uid : String) :
    (MySQLMessageRepo.getMessage msgId).OnlyCalls Written ∧
    (MySQLMessageRepo.recallMessage msgId uid).OnlyCalls Written ∧
    (MySQLMessageRepo.addOfflineMessage uid msgId).OnlyCalls Written ∧
    (MySQLMessageRepo.getUndeliveredMessages uid).OnlyCalls Written ∧
    (MySQLMessageRepo.markMessagesDelivered uid).OnlyCalls Written := by
  have hrecall : (MySQLMessageRepo.recallMessage msgId uid).OnlyCalls
      Written :=
    MySQLMessageRepo.onlyCalls_recallMessage trivial trivial
      ⟨.recallMessage msgId uid, rfl⟩
  exact ⟨written_query (.getMessage msgId), hrecall,
    written_query (.addOfflineMessage uid msgId),
    written_query (.getUndeliveredMessages uid),
    written_query (.markMessagesDelivered uid)⟩

/-- The room repository sends the statements of its queries. -/
theorem written_roomRepo (roomId : Int) (name uid : String) (role : Int) :
    (MySQLRoomRepo.createRoom name uid).OnlyCalls Written ∧
    (MySQLRoomRepo.getRoomByName name).OnlyCalls Written ∧
    (MySQLRoomRepo.getRoomById roomId).OnlyCalls Written ∧
    (MySQLRoomRepo.roomExists name).OnlyCalls Written ∧
    (MySQLRoomRepo.addRoomMember roomId uid role).OnlyCalls Written ∧
    (MySQLRoomRepo.removeRoomMember roomId uid).OnlyCalls Written ∧
    (MySQLRoomRepo.getRoomMembers roomId).OnlyCalls Written ∧
    (MySQLRoomRepo.getUserRooms uid).OnlyCalls Written := by
  have hbyName : (MySQLRoomRepo.getRoomByName name).OnlyCalls Written :=
    written_query (.getRoomByName name)
  exact ⟨written_query (.createRoom name uid), hbyName,
    written_query (.getRoomById roomId), hbyName.bind fun _ => onlyCalls_ret,
    written_query (.addRoomMember roomId uid role),
    written_query (.removeRoomMember roomId uid),
    written_query (.getRoomMembers roomId),
    written_query (.getUserRooms uid)⟩

/-- The session repository sends the statements of its queries. -/
theorem written_sessionRepo (uid token nodeId : String)
    (ttlSeconds : Int) :
    (MySQLSessionRepo.createSession uid token nodeId ttlSeconds).OnlyCalls
      Written ∧
    (MySQLSessionRepo.getSessionByToken token).OnlyCalls Written ∧
    (MySQLSessionRepo.isValidSession token).OnlyCalls Written ∧
    (MySQLSessionRepo.revokeSession token).OnlyCalls Written ∧
    (MySQLSessionRepo.revokeAllSessions uid).OnlyCalls Written ∧
    (MySQLSessionRepo.updateSessionNode token nodeId).OnlyCalls Written := by
  have hbyToken : (MySQLSessionRepo.getSessionByToken token).OnlyCalls
      Written :=
    written_query (.getSessionByToken token)
  exact ⟨written_query (.createSession uid token nodeId ttlSeconds), hbyToken,
    hbyToken.bind fun _ => onlyCalls_ret,
    written_query (.revokeSession token),
    written_query (.revokeAllSessions uid),
    written_query (.updateSessionNode token nodeId)⟩

end Statements

/-! ## Escaped arguments -/

/-- The function of that name in each of the four files. -/
def escape (realEscape : Text → Text) (s : Text) : Text :=
  if s = [] then [] else realEscape s

/-- What `mysql_real_escape_string` promises. -/
def EscapesAsDocumented (realEscape : Text → Text) : Prop :=
  ∀ s, realEscape s = s.flatMap escapeByte

theorem escape_eq {realEscape : Text → Text}
    (hdocumented : EscapesAsDocumented realEscape) (s : Text) :
    escape realEscape s = s.flatMap escapeByte := by
  unfold escape
  split
  · rename_i hempty
    rw [hempty]
    rfl
  · exact hdocumented s

namespace RepoQuery

/-- What is handed to `mysql_query`. -/
def text (realEscape : Text → Text) (query : RepoQuery Text Int) : Text :=
  render (escape realEscape) id query.sql

/-- A query holds no NUL, so that all of it is read, and it reads as the
skeleton of its method, with each string argument as one literal of exactly
that value. -/
theorem repo_queries_read {realEscape : Text → Text}
    (hdocumented : EscapesAsDocumented realEscape)
    (query : RepoQuery Text Int) :
    0 ∉ query.text realEscape ∧
      ∃ slots : List (Slot Text Int),
        lex (query.text realEscape) =
          some (slots.flatMap (Slot.tokens id id)) ∧
        slots.map (Slot.map (fun _ => ()) fun _ => ()) =
          skeletonOf query.method ∧
        slots.filterMap Slot.value? = query.sql.filterMap Piece.value? := by
  obtain ⟨slots, hskeleton, hmethod⟩ := query.skeleton_sql
  have hencode (value : Text) :
      ReadsAs (escape realEscape value) (id value) := by
    rw [escape_eq hdocumented]
    exact readsAs_escape value
  have hzero (value : Text) : 0 ∉ escape realEscape value := by
    rw [escape_eq hdocumented]
    exact zero_not_mem_escape value
  refine ⟨zero_not_mem_render (fun value _ => hzero value) query.nulFree,
    slots, ?_, hmethod, ?_⟩
  · exact lex_render (fun value _ => hencode value) hskeleton
  · exact values_skeleton hskeleton

/-- A friend request with a message that tries to end its literal. -/
def hostileRequest : RepoQuery Text Int :=
  .addFriendRequest (bytesOf "al'ice") [0, backslash, newline]
    (bytesOf "'); DROP TABLE users; -- ")

theorem repo_queries_read_hostileRequest :
    ∃ slots : List (Slot Text Int),
      lex (hostileRequest.text fun s => s.flatMap escapeByte) =
        some (slots.flatMap (Slot.tokens id id)) ∧
      slots.filterMap Slot.value? =
        [bytesOf "al'ice", [0, backslash, newline],
          bytesOf "'); DROP TABLE users; -- "] := by
  obtain ⟨-, slots, hlex, -, hvalues⟩ :=
    repo_queries_read (fun _ => rfl) hostileRequest
  exact ⟨slots, hlex, hvalues⟩

end RepoQuery

end MuduoChat
