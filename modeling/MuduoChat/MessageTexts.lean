import MuduoChat.SqlPatterns
import MuduoChat.StoredMessages
import MuduoChat.UserQueries

/-!
# The texts of messages

The methods of the message repository that store and read messages, on the
bytes of their queries and of the rows they get back.  The server reads a text
up to its NUL, tells from the tokens which query it is and with which
arguments, executes the statement on the database of `Database`, and answers
with columns, each followed by a NUL.  The client takes a column for a C
string.

On the way there nothing is lost: `send_query` says that the server executes
the statement with the very strings of the caller.  On the way back a string
ends at its first NUL.
-/

namespace MuduoChat

open SqlTexts

/-! ## Queries told by their tokens -/

namespace RepoQuery

variable {Value Number Other Count : Type}

/-- The slots of a query. -/
def slots (query : RepoQuery Value Number) : List (Slot Value Number) :=
  (skeleton query.sql).getD []

/-- The queries of these methods, with their holes numbered. -/
def templates : List (RepoQuery Nat Nat) :=
  [.findRoom 0, .nextSeq 0,
    .storeMessage 0 (some 1) 0 (some 1) 2,
    .storeMessage 0 (some 1) 0 none 1,
    .storeMessage 0 none 0 (some 1) 2,
    .storeMessage 0 none 0 none 1,
    .getMessage 0, .addOfflineMessage 0 0, .getUndeliveredMessages 0]

theorem templates_clash :
    templates.Pairwise fun first second =>
      clash first.slots second.slots = true := by
  decide +kernel

theorem numbers_templates :
    ∀ template ∈ templates, template.slots.filterMap Slot.number? =
      template.sql.filterMap Piece.number? := by
  decide +kernel

/-- A template with these arguments. -/
def filled (template : RepoQuery Nat Nat) (found : List Text × List Int) :
    RepoQuery Text Int :=
  template.map (fun label => found.1.getD label [])
    fun label => found.2.getD label 0

def ofTokens? (tokens : List Token) : Option (RepoQuery Text Int) :=
  templates.findSome? fun template =>
    (fill template.slots tokens).map template.filled

def tokens (query : RepoQuery Text Int) : List Token :=
  query.slots.flatMap (Slot.tokens id id)

theorem slots_map (onValue : Value → Other) (onNumber : Number → Count)
    (query : RepoQuery Value Number) :
    (query.map onValue onNumber).slots =
      query.slots.map (Slot.map onValue onNumber) := by
  unfold slots
  rw [sql_map, skeleton_map]
  cases skeleton query.sql <;> rfl

theorem values_slots (query : RepoQuery Value Number) :
    query.slots.filterMap Slot.value? = query.sql.filterMap Piece.value? := by
  obtain ⟨slots, hslots, -⟩ := query.skeleton_sql
  rw [← values_skeleton hslots, RepoQuery.slots, hslots]
  rfl

theorem tokens_map (read : Nat → Text) (count : Nat → Int)
    (template : RepoQuery Nat Nat) :
    (template.map read count).tokens =
      template.slots.flatMap (Slot.tokens read count) := by
  have hslot : ∀ slot : Slot Nat Nat,
      Slot.tokens id id (slot.map read count) = slot.tokens read count := by
    intro slot
    cases slot <;> rfl
  rw [tokens, slots_map, List.flatMap_map]
  simp only [hslot]

/-- The tokens tell the query and its arguments. -/
theorem ofTokens?_tokens {template : RepoQuery Nat Nat}
    (htemplate : template ∈ templates) (read : Nat → Text)
    (count : Nat → Int) :
    ofTokens? (template.map read count).tokens =
      some (template.map read count) := by
  have hfound := findSome?_fill templates_clash htemplate filled read count
  rw [values_slots, numbers_templates template htemplate] at hfound
  rw [ofTokens?, tokens_map, hfound]
  simp only [templates, List.mem_cons, List.not_mem_nil, or_false]
    at htemplate
  rcases htemplate with rfl | rfl | rfl | rfl | rfl | rfl | rfl | rfl | rfl
  all_goals rfl

/-- What is handed to `mysql_query` is read as these tokens, to its end. -/
theorem lex_text {realEscape : Text → Text}
    (hdocumented : EscapesAsDocumented realEscape)
    (query : RepoQuery Text Int) :
    lex (cString (query.text realEscape)) = some query.tokens := by
  obtain ⟨slots, hskeleton, -⟩ := query.skeleton_sql
  have hzero : ∀ value, 0 ∉ escape realEscape value := by
    intro value
    rw [escape_eq hdocumented]
    exact zero_not_mem_escape value
  have hread : ∀ value, ReadsAs (escape realEscape value) (id value) := by
    intro value
    rw [escape_eq hdocumented]
    exact readsAs_escape value
  have htext : 0 ∉ query.text realEscape :=
    zero_not_mem_render (fun value _ => hzero value) query.nulFree
  rw [cString_eq htext, text, lex_render (fun value _ => hread value)
    hskeleton, tokens, RepoQuery.slots, hskeleton]
  rfl

/-! ## Strings and their bytes -/

/-- The server takes only UTF-8 for a string. -/
def decode (query : RepoQuery Text Int) : Option (RepoQuery String Int) :=
  if (query.sql.filterMap Piece.value?).all fun value =>
      (stringOf? value).isSome then
    some (query.map (fun value => (stringOf? value).getD "") id)
  else none

/-- A query of the client, whose strings are protobuf strings. -/
def encode (query : RepoQuery String Int) : RepoQuery Text Int :=
  query.map bytesOf id

theorem map_map {Third : Type} {Fourth : Type} (onValue : Value → Other)
    (onNumber : Number → Count) (onOther : Other → Third)
    (onCount : Count → Fourth) (query : RepoQuery Value Number) :
    (query.map onValue onNumber).map onOther onCount =
      query.map (onOther ∘ onValue) (onCount ∘ onNumber) := by
  cases query with
  | storeMessage seq roomId sender recipient content =>
      simp [map, Option.map_map]
  | _ => rfl

theorem map_self (query : RepoQuery Value Number) :
    query.map id id = query := by
  cases query with
  | storeMessage seq roomId sender recipient content => simp [map]
  | _ => rfl

theorem decode_encode (query : RepoQuery String Int) :
    decode query.encode = some query := by
  have hvalid : ((query.encode.sql.filterMap Piece.value?).all fun value =>
      (stringOf? value).isSome) = true := by
    rw [List.all_eq_true]
    intro value hvalue
    rw [encode, sql_map, List.filterMap_map] at hvalue
    obtain ⟨piece, -, hpiece⟩ := List.mem_filterMap.mp hvalue
    cases piece with
    | literal text =>
        cases hpiece
        rw [stringOf?_bytesOf]
        rfl
    | text content => cases hpiece
    | number count => cases hpiece
  have hself : (fun value => (stringOf? value).getD "") ∘ bytesOf = id := by
    funext text
    simp [stringOf?_bytesOf]
  rw [decode, if_pos hvalid, encode, map_map, hself]
  exact congrArg some (map_self query)

end RepoQuery

/-! ## The server -/

/-- The database, and what `mysql_insert_id` gives. -/
structure MessageStore where
  db : Database
  insertId : Int := 0

/-- The columns of a message, each of which is sent with its length. -/
def MessageInfo.columns (info : MessageInfo) : List (Option Text) :=
  [some (numeral info.msgId), some (numeral info.seq),
    some (bytesOf info.fromUid),
    if info.toUid = "" then none else some (bytesOf info.toUid),
    some (bytesOf info.roomName), some (bytesOf info.content),
    some (numeral info.recalled), some (bytesOf info.createdAt)]

namespace MessageStore

/-- The result of a statement as the client library hands it over. -/
def respond : (query : RepoQuery String Int) → query.statement.Result → Reply
  | .findRoom _, ids => .rows (ids.map fun id => [some (numeral id)])
  | .nextSeq _, seq => .rows [[some (numeral seq)]]
  | .getMessage _, found =>
      .rows (found.toList.map MessageInfo.columns)
  | .getUndeliveredMessages _, found =>
      .rows (found.map MessageInfo.columns)
  | _, _ => .noResult

/-- An `INSERT` of a message sets the insert id. -/
def idAfter (insertId : Int) :
    (query : RepoQuery String Int) → query.statement.Result → Int
  | .storeMessage .., id => id
  | _, _ => insertId

def run (store : MessageStore) (query : RepoQuery String Int) :
    Reply × MessageStore :=
  match store.db.execStatement query.statement with
  | (db, none) => (.error, { store with db := db })
  | (db, some result) =>
      (respond query result,
        { db := db, insertId := idAfter store.insertId query result })

variable {store : MessageStore} {query : RepoQuery String Int} {db : Database}

theorem run_of_none (hexec : store.db.execStatement query.statement =
    (db, none)) : store.run query = (.error, { store with db := db }) := by
  rw [run, hexec]

theorem run_of_some {result : query.statement.Result}
    (hexec : store.db.execStatement query.statement = (db, some result)) :
    store.run query =
      (respond query result,
        { db := db, insertId := idAfter store.insertId query result }) := by
  rw [run, hexec]

end MessageStore

def messageServer (realEscape : Text → Text) : SqlServer MessageStore where
  realEscape := realEscape
  exec tokens store :=
    match (RepoQuery.ofTokens? tokens).bind RepoQuery.decode with
    | none => (.error, store)
    | some query => store.run query

/-- `mysql_query` with a text of the repository. -/
def SqlServer.send {σ : Type} (server : SqlServer σ)
    (query : RepoQuery Text Int) (state : σ) : Reply × σ :=
  match lex (cString (query.text server.realEscape)) with
  | none => (.error, state)
  | some tokens => server.exec tokens state

/-- The server executes the query with the strings of the caller. -/
theorem send_query {realEscape : Text → Text}
    (hdocumented : EscapesAsDocumented realEscape)
    {template : RepoQuery Nat Nat}
    (htemplate : template ∈ RepoQuery.templates) (read : Nat → String)
    (count : Nat → Int) (store : MessageStore) :
    (messageServer realEscape).send (template.map read count).encode store =
      store.run (template.map read count) := by
  have htokens : RepoQuery.ofTokens?
      (template.map read count).encode.tokens =
        some (template.map read count).encode := by
    rw [RepoQuery.encode, RepoQuery.map_map]
    exact RepoQuery.ofTokens?_tokens htemplate _ _
  have hlex := RepoQuery.lex_text hdocumented
    (template.map read count).encode
  unfold SqlServer.send
  simp only [messageServer, hlex, htokens, Option.bind_some,
    RepoQuery.decode_encode]

/-! ## The client -/

/-- The digits at the head of a text. -/
def leadingNumber (value : Nat) : Text → Nat
  | [] => value
  | byte :: rest =>
      if 48 ≤ byte ∧ byte ≤ 57 then
        leadingNumber (value * 10 + (byte.toNat - 48)) rest
      else value

def atoll (text : Text) : Int :=
  match text.dropWhile IsSpace with
  | [] => 0
  | byte :: rest =>
      if byte = 45 then -(leadingNumber 0 rest)
      else if byte = 43 then leadingNumber 0 rest
      else leadingNumber 0 (byte :: rest)

/-- A `MessageInfo` of the source, whose strings are bytes. -/
structure MessageRecord where
  msgId : Int
  seq : Int
  fromUid : Text
  toUid : Text
  roomName : Text
  content : Text
  recalled : Int
  createdAt : Text

def readRecord (row : List (Option Text)) : MessageRecord where
  msgId := atoll (column row 0)
  seq := atoll (column row 1)
  fromUid := column row 2
  toUid := column row 3
  roomName := column row 4
  content := column row 5
  recalled := atoll (column row 6)
  createdAt := column row 7

namespace SqlServer

variable {σ : Type} (server : SqlServer σ)

/-- The first column of the first row, read as a number. -/
def number (query : RepoQuery Text Int) (default : Int) (state : σ) :
    Int × σ :=
  match server.send query state with
  | (.rows ((some text :: _) :: _), state) => (atoll (cString text), state)
  | (_, state) => (default, state)

end SqlServer

/-! ## The methods of the repository, with a connection at hand -/

namespace MySQLMessageRepo

variable (server : SqlServer MessageStore)

def storeText (sender recipient room content : Text) (store : MessageStore) :
    Int × MessageStore :=
  let (roomId, store) :=
    if room = [] then (0, store) else server.number (.findRoom room) 0 store
  let (seq, store) :=
    if roomId > 0 then server.number (.nextSeq roomId) 1 store
    else (1, store)
  let (reply, store) := server.send
    (.storeMessage seq (if roomId > 0 then some roomId else none) sender
      (if recipient = [] then none else some recipient) content) store
  if reply = .error then (0, store) else (store.insertId, store)

def getText (msgId : Int) (store : MessageStore) :
    Option MessageRecord × MessageStore :=
  match server.send (.getMessage msgId) store with
  | (.rows (row :: _), store) => (some (readRecord row), store)
  | (_, store) => (none, store)

def addOfflineText (targetUid : Text) (msgId : Int) (store : MessageStore) :
    Bool × MessageStore :=
  let (reply, store) := server.send (.addOfflineMessage targetUid msgId) store
  (reply ≠ .error, store)

def getUndeliveredTexts (uid : Text) (store : MessageStore) :
    List MessageRecord × MessageStore :=
  match server.send (.getUndeliveredMessages uid) store with
  | (.rows rows, store) => (rows.map readRecord, store)
  | (_, store) => ([], store)

end MySQLMessageRepo

/-! ### Columns read back -/

theorem leadingNumber_of_readNumber {value number : Nat} {text : Text}
    (hread : readNumber value text = some number) :
    leadingNumber value text = number := by
  induction text generalizing value with
  | nil => exact Option.some.inj hread
  | cons byte rest ih =>
      rw [readNumber] at hread
      rw [leadingNumber]
      split at hread
      · rename_i hdigit
        rw [if_pos hdigit]
        exact ih hread
      · cases hread

theorem atoll_of_isWord {byte : UInt8} {rest : Text}
    (hword : IsWord byte = true) :
    atoll (byte :: rest) = leadingNumber 0 (byte :: rest) := by
  have hspace : ¬ IsSpace byte = true := by
    unfold IsWord at hword
    unfold IsSpace
    grind
  have hminus : byte ≠ 45 := by
    rintro rfl
    cases hword
  have hplus : byte ≠ 43 := by
    rintro rfl
    cases hword
  unfold atoll
  rw [List.dropWhile_cons_of_neg hspace]
  dsimp only
  rw [if_neg hminus, if_neg hplus]

theorem atoll_numeral (number : Int) : atoll (numeral number) = number := by
  have hdigits := leadingNumber_of_readNumber
    (readNumber_digits number.natAbs)
  unfold numeral
  split
  · have hminus : ¬ IsSpace 45 = true := by decide
    rw [List.singleton_append, atoll, List.dropWhile_cons_of_neg hminus]
    dsimp only
    rw [if_pos rfl, hdigits]
    omega
  · obtain ⟨byte, rest, heq⟩ :=
      List.exists_cons_of_ne_nil (digits_ne_nil number.natAbs)
    have hword : IsWord byte = true :=
      isWord_of_mem_digits (heq ▸ List.mem_cons_self)
    rw [List.nil_append, heq, atoll_of_isWord hword, ← heq, hdigits]
    omega

theorem cString_numeral (number : Int) :
    cString (numeral number) = numeral number :=
  cString_eq (zero_not_mem_numeral number)

/-- The strings of a record end at their first NUL. -/
theorem readRecord_columns (info : MessageInfo) :
    readRecord info.columns =
      { msgId := info.msgId
        seq := info.seq
        fromUid := cString (bytesOf info.fromUid)
        toUid := cString (bytesOf info.toUid)
        roomName := cString (bytesOf info.roomName)
        content := cString (bytesOf info.content)
        recalled := info.recalled
        createdAt := cString (bytesOf info.createdAt) } := by
  have htoUid : column info.columns 3 = cString (bytesOf info.toUid) := by
    unfold MessageInfo.columns
    split
    · rename_i hempty
      rw [hempty]
      rfl
    · rfl
  have hnumber (number : Int) : atoll (cString (numeral number)) = number := by
    rw [cString_numeral, atoll_numeral]
  rw [readRecord, htoUid]
  show MessageRecord.mk (atoll (cString (numeral info.msgId)))
    (atoll (cString (numeral info.seq))) _ _ _ _
    (atoll (cString (numeral info.recalled))) _ = _
  rw [hnumber, hnumber, hnumber]
  rfl

/-! ### The methods do what their programs do -/

section Methods

variable {realEscape : Text → Text}

theorem send_storeMessage (hdocumented : EscapesAsDocumented realEscape)
    (seq : Int) (roomId : Option Int) (sender : String)
    (recipient : Option String) (content : String) (store : MessageStore) :
    (messageServer realEscape).send
        (.storeMessage seq roomId (bytesOf sender) (recipient.map bytesOf)
          (bytesOf content)) store =
      store.run (.storeMessage seq roomId sender recipient content) := by
  cases roomId with
  | none =>
      cases recipient with
      | none =>
          exact @send_query _ hdocumented (.storeMessage 0 none 0 none 1)
            (by simp [RepoQuery.templates])
            (fun label => [sender, content].getD label "")
            (fun _ => seq) store
      | some recipient =>
          exact @send_query _ hdocumented (.storeMessage 0 none 0 (some 1) 2)
            (by simp [RepoQuery.templates])
            (fun label => [sender, recipient, content].getD label "")
            (fun _ => seq) store
  | some roomId =>
      cases recipient with
      | none =>
          exact @send_query _ hdocumented (.storeMessage 0 (some 1) 0 none 1)
            (by simp [RepoQuery.templates])
            (fun label => [sender, content].getD label "")
            (fun label => [seq, roomId].getD label 0) store
      | some recipient =>
          exact @send_query _ hdocumented
            (.storeMessage 0 (some 1) 0 (some 1) 2)
            (by simp [RepoQuery.templates])
            (fun label => [sender, recipient, content].getD label "")
            (fun label => [seq, roomId].getD label 0) store

theorem send_getMessage (hdocumented : EscapesAsDocumented realEscape)
    (msgId : Int) (store : MessageStore) :
    (messageServer realEscape).send (.getMessage msgId) store =
      store.run (.getMessage msgId) :=
  @send_query _ hdocumented (.getMessage 0) (by simp [RepoQuery.templates])
    (fun _ => "") (fun _ => msgId) store

theorem send_addOfflineMessage (hdocumented : EscapesAsDocumented realEscape)
    (targetUid : String) (msgId : Int) (store : MessageStore) :
    (messageServer realEscape).send
        (.addOfflineMessage (bytesOf targetUid) msgId) store =
      store.run (.addOfflineMessage targetUid msgId) :=
  @send_query _ hdocumented (.addOfflineMessage 0 0)
    (by simp [RepoQuery.templates]) (fun _ => targetUid) (fun _ => msgId)
    store

theorem send_getUndeliveredMessages
    (hdocumented : EscapesAsDocumented realEscape) (uid : String)
    (store : MessageStore) :
    (messageServer realEscape).send (.getUndeliveredMessages (bytesOf uid))
        store =
      store.run (.getUndeliveredMessages uid) :=
  @send_query _ hdocumented (.getUndeliveredMessages 0)
    (by simp [RepoQuery.templates]) (fun _ => uid) (fun _ => 0) store

section Numbers

variable {server : SqlServer MessageStore} {query : RepoQuery Text Int}
  {default number : Int} {store after : MessageStore}

theorem number_of_rows {rest : List (List (Option Text))}
    (hsend : server.send query store =
      (.rows ([some (numeral number)] :: rest), after)) :
    server.number query default store = (number, after) := by
  have hread : atoll (cString (numeral number)) = number := by
    rw [cString_numeral, atoll_numeral]
  rw [SqlServer.number, hsend]
  dsimp only
  rw [hread]

theorem number_of_nil (hsend : server.send query store = (.rows [], after)) :
    server.number query default store = (default, after) := by
  rw [SqlServer.number, hsend]

end Numbers

theorem number_findRoom (hdocumented : EscapesAsDocumented realEscape)
    (room : String) (store : MessageStore) :
    (if bytesOf room = [] then ((0 : Int), store)
      else (messageServer realEscape).number (.findRoom (bytesOf room)) 0
        store) =
      ((Prog.run Database.exec store.db
        (MySQLMessageRepo.lookupRoom room)).2, store) := by
  have hsend : (messageServer realEscape).send (.findRoom (bytesOf room))
      store = store.run (.findRoom room) :=
    @send_query _ hdocumented (.findRoom 0) (by simp [RepoQuery.templates])
      (fun _ => room) (fun _ => 0) store
  have hrun : store.run (.findRoom room) =
      (.rows (((store.db.rooms.entries.filter fun entry =>
        entry.2.name = room).map Prod.fst).map fun id =>
          [some (numeral id)]), store) := rfl
  unfold MySQLMessageRepo.lookupRoom
  by_cases hroom : room = ""
  · rw [if_pos (bytesOf_eq_nil.mpr hroom), if_pos hroom]
    rfl
  · have hlookup : (Prog.run Database.exec store.db
        (mysqlQuery (.selectRoomId room) >>= fun result =>
          pure ((result.getD []).head?.getD (0 : Int)))).2 =
        ((store.db.rooms.entries.filter fun entry =>
          entry.2.name = room).map Prod.fst).head?.getD 0 := rfl
    rw [if_neg (bytesOf_eq_nil.not.mpr hroom), if_neg hroom, hlookup]
    rw [hrun] at hsend
    generalize (store.db.rooms.entries.filter fun entry =>
      entry.2.name = room).map Prod.fst = ids at hsend ⊢
    cases ids with
    | nil => exact number_of_nil hsend
    | cons id rest => exact number_of_rows hsend

theorem number_nextSeq (hdocumented : EscapesAsDocumented realEscape)
    (roomId : Int) (store : MessageStore) :
    (if roomId > 0 then
        (messageServer realEscape).number (.nextSeq roomId) 1 store
      else ((1 : Int), store)) =
      ((Prog.run Database.exec store.db
        (MySQLMessageRepo.nextSeq roomId)).2, store) := by
  have hsend : (messageServer realEscape).send (.nextSeq roomId) store =
      store.run (.nextSeq roomId) :=
    @send_query _ hdocumented (.nextSeq 0) (by simp [RepoQuery.templates])
      (fun _ => "") (fun _ => roomId) store
  unfold MySQLMessageRepo.nextSeq
  split
  · exact number_of_rows hsend
  · rfl

/-- Neither query before the `INSERT` changes the database. -/
theorem run_lookups (db : Database) (room : String) (roomId : Int) :
    (Prog.run Database.exec db (MySQLMessageRepo.lookupRoom room)).1 = db ∧
      (Prog.run Database.exec db (MySQLMessageRepo.nextSeq roomId)).1 =
        db := by
  unfold MySQLMessageRepo.lookupRoom MySQLMessageRepo.nextSeq
  constructor
  · split <;> rfl
  · split <;> rfl

/-- Storing a message ends with the `INSERT`. -/
theorem run_storeMessage (db : Database)
    (sender recipient room content : String) :
    ∃ roomId seq : Int,
      (Prog.run Database.exec db (MySQLMessageRepo.lookupRoom room)).2 =
          roomId ∧
        (Prog.run Database.exec db (MySQLMessageRepo.nextSeq roomId)).2 =
          seq ∧
        Prog.run Database.exec db
            (MySQLMessageRepo.storeMessage sender recipient room content) =
          Prod.map id (Option.getD · 0)
            (db.execStatement (.insertMessage seq
              (if roomId > 0 then some roomId else none) sender
              (if recipient = "" then none else some recipient) content)) := by
  refine ⟨_, _, rfl, rfl, ?_⟩
  simp only [MySQLMessageRepo.storeMessage, run_withConnection,
    Prog.run_bind, (run_lookups db room 0).1, (run_lookups db room _).2]
  rfl

/-- The end of `storeText` is the end of the program. -/
theorem settle_storeMessage (store : MessageStore)
    {seq : Int} {roomId : Option Int} {sender : String}
    {recipient : Option String} {content : String}
    {settled : Reply × MessageStore} {written : Database × Int}
    (hsettled : store.run
      (.storeMessage seq roomId sender recipient content) = settled)
    (hwritten : Prod.map id (Option.getD · 0) (store.db.execStatement
      (.insertMessage seq roomId sender recipient content)) = written) :
    ∃ insertId,
      (if settled.1 = .error then ((0 : Int), settled.2)
        else (settled.2.insertId, settled.2)) =
      (written.2, { db := written.1, insertId := insertId }) := by
  subst hsettled hwritten
  rcases hexec : store.db.execStatement
      (.insertMessage seq roomId sender recipient content) with
    ⟨db, _ | id⟩
  · rw [@MessageStore.run_of_none store
      (.storeMessage seq roomId sender recipient content) _ hexec]
    exact ⟨store.insertId, rfl⟩
  · rw [@MessageStore.run_of_some store
      (.storeMessage seq roomId sender recipient content) _ _ hexec]
    exact ⟨id, rfl⟩

/-- Storing a message does to the database what its program does, and returns
the same identifier. -/
theorem storeText_eq (hdocumented : EscapesAsDocumented realEscape)
    (sender recipient room content : String) (store : MessageStore) :
    ∃ insertId, MySQLMessageRepo.storeText (messageServer realEscape)
        (bytesOf sender) (bytesOf recipient) (bytesOf room) (bytesOf content)
        store =
      ((Prog.run Database.exec store.db
          (MySQLMessageRepo.storeMessage sender recipient room content)).2,
        { db := (Prog.run Database.exec store.db
            (MySQLMessageRepo.storeMessage sender recipient room content)).1
          insertId := insertId }) := by
  have hrecipient : (if bytesOf recipient = [] then none
      else some (bytesOf recipient)) =
        (if recipient = "" then none else some recipient).map bytesOf := by
    by_cases hempty : recipient = ""
    · rw [if_pos (bytesOf_eq_nil.mpr hempty), if_pos hempty]
      rfl
    · rw [if_neg (bytesOf_eq_nil.not.mpr hempty), if_neg hempty]
      rfl
  obtain ⟨roomId, seq, hroom, hseq, hrun⟩ := run_storeMessage store.db sender
    recipient room content
  unfold MySQLMessageRepo.storeText
  rw [number_findRoom hdocumented, hrecipient, hroom]
  dsimp only
  rw [number_nextSeq hdocumented, hseq]
  dsimp only
  rw [send_storeMessage hdocumented]
  exact settle_storeMessage store rfl hrun.symm

end Methods

/-! ## Messages that read back -/

theorem cString_eq_self {text : Text} : cString text = text ↔ 0 ∉ text := by
  constructor
  · intro hself hzero
    have hne := List.takeWhile_eq_self_iff.mp hself 0 hzero
    simp at hne
  · exact cString_eq

/-- Whatever happens in between: the message reads back with the strings it
was stored with, and once it was queued for its recipient, the queue gives
back its content. -/
structure ReadsBack (server : SqlServer MessageStore) (stored : MessageStore)
    (msgId : Int) (sender recipient content : String) : Prop where
  message : ∀ later : MessageStore,
    stored.db.Later (fun _ => True) later.db →
      ∃ record, (MySQLMessageRepo.getText server msgId later).1 =
          some record ∧
        record.fromUid = bytesOf sender ∧
        record.toUid = bytesOf recipient ∧
        record.content = bytesOf content
  offline : ∀ later queued last : MessageStore,
    stored.db.Later (fun _ => True) later.db →
    MySQLMessageRepo.addOfflineText server (bytesOf recipient) msgId later =
      (true, queued) →
    queued.db.Later (fun statement => statement ≠ .updateDelivered recipient)
      last.db →
    (∃ record ∈ (MySQLMessageRepo.getUndeliveredTexts server
        (bytesOf recipient) last).1, record.msgId = msgId) ∧
      ∀ record ∈ (MySQLMessageRepo.getUndeliveredTexts server
          (bytesOf recipient) last).1,
        record.msgId = msgId → record.content = bytesOf content

section Reading

variable {realEscape : Text → Text} {sender recipient room content : String}
  {store stored : MessageStore} {msgId : Int} {row : MessageRow}

theorem stored_storeText (hdocumented : EscapesAsDocumented realEscape)
    (hstore : MySQLMessageRepo.storeText (messageServer realEscape)
      (bytesOf sender) (bytesOf recipient) (bytesOf room) (bytesOf content)
      store = (msgId, stored))
    (hid : 0 < msgId) :
    ∃ row : MessageRow, stored.db.Stored msgId row ∧ row.fromUid = sender ∧
      row.toUid.getD "" = recipient ∧ row.content = content := by
  obtain ⟨insertId, heq⟩ := storeText_eq hdocumented sender recipient room
    content store
  obtain ⟨roomId, seq, -, -, hrun⟩ := run_storeMessage store.db sender
    recipient room content
  rw [hstore, hrun] at heq
  obtain ⟨rfl, rfl⟩ := Prod.mk.inj heq
  rcases hexec : store.db.execStatement (.insertMessage seq
      (if roomId > 0 then some roomId else none) sender
      (if recipient = "" then none else some recipient) content) with
    ⟨db, _ | id⟩
  · rw [hexec] at hid
    cases hid
  · refine ⟨_, Database.stored_insertMessage hexec, rfl, ?_, rfl⟩
    by_cases hempty : recipient = "" <;> simp [hempty]

/-- A stored message is read with strings that end at their first NUL. -/
theorem getText_of_stored (hdocumented : EscapesAsDocumented realEscape)
    (hstored : store.db.Stored msgId row) :
    ∃ record, (MySQLMessageRepo.getText (messageServer realEscape) msgId
        store).1 = some record ∧
      record.fromUid = cString (bytesOf row.fromUid) ∧
      record.toUid = cString (bytesOf (row.toUid.getD "")) ∧
      record.content = cString (bytesOf row.content) := by
  obtain ⟨info, hselect, hshows⟩ := hstored.selectMessage
  have hrun : store.run (.getMessage msgId) =
      (.rows [info.columns], store) :=
    @MessageStore.run_of_some store (.getMessage msgId) _ _ hselect
  refine ⟨readRecord info.columns, ?_, ?_⟩
  · unfold MySQLMessageRepo.getText
    rw [send_getMessage hdocumented, hrun]
  · rw [readRecord_columns, hshows.fromUid, hshows.toUid, hshows.content]
    exact ⟨rfl, rfl, rfl⟩

/-- An offline message that was queued waits. -/
theorem waiting_addOfflineText (hdocumented : EscapesAsDocumented realEscape)
    (hadd : MySQLMessageRepo.addOfflineText (messageServer realEscape)
      (bytesOf recipient) msgId store = (true, stored)) :
    stored.db.Waiting recipient msgId ∧
      stored.db = (store.db.execStatement
        (.insertOfflineMessage recipient msgId)).1 := by
  unfold MySQLMessageRepo.addOfflineText at hadd
  rw [send_addOfflineMessage hdocumented] at hadd
  rcases hexec : store.db.execStatement
      (.insertOfflineMessage recipient msgId) with ⟨db, _ | _⟩
  · rw [@MessageStore.run_of_none store
      (.addOfflineMessage recipient msgId) _ hexec] at hadd
    cases hadd
  · rw [@MessageStore.run_of_some store
      (.addOfflineMessage recipient msgId) _ _ hexec] at hadd
    cases hadd
    refine ⟨?_, rfl⟩
    simp only [Database.execStatement] at hexec
    split at hexec
    · cases hexec
      exact ⟨_, List.mem_append_right _ List.mem_cons_self, rfl, rfl, rfl⟩
    · cases hexec

/-- A waiting message is read with its content up to the first NUL. -/
theorem getUndeliveredTexts_of_waiting
    (hdocumented : EscapesAsDocumented realEscape)
    (hstored : store.db.Stored msgId row)
    (hwaiting : store.db.Waiting recipient msgId) :
    (∃ record ∈ (MySQLMessageRepo.getUndeliveredTexts
        (messageServer realEscape) (bytesOf recipient) store).1,
          record.msgId = msgId) ∧
      ∀ record ∈ (MySQLMessageRepo.getUndeliveredTexts
          (messageServer realEscape) (bytesOf recipient) store).1,
        record.msgId = msgId →
          record.content = cString (bytesOf row.content) := by
  obtain ⟨infos, hselect, ⟨info, hinfo, hid⟩, hshows⟩ :=
    hstored.selectUndelivered hwaiting
  have hrun : store.run (.getUndeliveredMessages recipient) =
      (.rows (infos.map MessageInfo.columns), store) :=
    @MessageStore.run_of_some store (.getUndeliveredMessages recipient) _ _
      hselect
  have hrecords : (MySQLMessageRepo.getUndeliveredTexts
      (messageServer realEscape) (bytesOf recipient) store).1 =
        (infos.map MessageInfo.columns).map readRecord := by
    unfold MySQLMessageRepo.getUndeliveredTexts
    rw [send_getUndeliveredMessages hdocumented, hrun]
  rw [hrecords, List.map_map]
  constructor
  · refine ⟨_, List.mem_map_of_mem hinfo, ?_⟩
    rw [Function.comp_apply, readRecord_columns]
    exact hid
  · intro record hrecord hsame
    obtain ⟨other, hother, rfl⟩ := List.mem_map.mp hrecord
    rw [Function.comp_apply, readRecord_columns] at hsame ⊢
    dsimp only at hsame ⊢
    rw [(hshows other hother hsame).content]

/-- A stored message reads back unchanged if and only if none of its strings
holds a NUL. -/
theorem message_reads_back_iff (hdocumented : EscapesAsDocumented realEscape)
    (hstore : MySQLMessageRepo.storeText (messageServer realEscape)
      (bytesOf sender) (bytesOf recipient) (bytesOf room) (bytesOf content)
      store = (msgId, stored))
    (hid : 0 < msgId) :
    ReadsBack (messageServer realEscape) stored msgId sender recipient
        content ↔
      0 ∉ bytesOf sender ∧ 0 ∉ bytesOf recipient ∧ 0 ∉ bytesOf content := by
  obtain ⟨row, hstored, rfl, rfl, rfl⟩ := stored_storeText hdocumented hstore
    hid
  constructor
  · intro hreads
    obtain ⟨record, hrecord, hsender, hrecipient, hcontent⟩ :=
      hreads.message stored .refl
    obtain ⟨same, hsame, hfrom, hto, htext⟩ :=
      getText_of_stored hdocumented hstored
    rw [hrecord] at hsame
    cases hsame
    rw [hfrom, cString_eq_self] at hsender
    rw [hto, cString_eq_self] at hrecipient
    rw [htext, cString_eq_self] at hcontent
    exact ⟨hsender, hrecipient, hcontent⟩
  · rintro ⟨hsender, hrecipient, hcontent⟩
    constructor
    · intro later hlater
      obtain ⟨record, hrecord, hfrom, hto, htext⟩ :=
        getText_of_stored hdocumented (hstored.later hlater)
      rw [cString_eq hsender] at hfrom
      rw [cString_eq hrecipient] at hto
      rw [cString_eq hcontent] at htext
      exact ⟨record, hrecord, hfrom, hto, htext⟩
    · intro later queued last hlater hqueue hlast
      obtain ⟨hwaiting, hdb⟩ := waiting_addOfflineText hdocumented hqueue
      have hqueued : queued.db.Stored msgId row := by
        rw [hdb]
        exact (hstored.later hlater).execStatement _
      have hread := getUndeliveredTexts_of_waiting hdocumented
        (hqueued.later hlast) (hwaiting.later hlast fun hne => hne rfl)
      rwa [cString_eq hcontent] at hread

end Reading

/-- Alice and Bob are registered. -/
def aliceAndBob : MessageStore where
  db := { users := (KeyedTable.empty.insertIgnore { uid := "alice" }
    ).insertIgnore { uid := "bob" } }

def documentedEscape (text : Text) : Text :=
  text.flatMap escapeByte

theorem documentedEscape_documented :
    EscapesAsDocumented documentedEscape :=
  fun _ => rfl

theorem exists_storeText_aliceAndBob (content : String) :
    ∃ stored, MySQLMessageRepo.storeText (messageServer documentedEscape)
      (bytesOf "alice") (bytesOf "bob") (bytesOf "") (bytesOf content)
      aliceAndBob = (1, stored) := by
  obtain ⟨insertId, heq⟩ := storeText_eq documentedEscape_documented "alice"
    "bob" "" content aliceAndBob
  exact ⟨_, heq⟩

theorem message_reads_back_hello :
    ∃ stored, ReadsBack (messageServer documentedEscape) stored 1 "alice"
      "bob" "it's \\ \n" := by
  obtain ⟨stored, hstore⟩ := exists_storeText_aliceAndBob "it's \\ \n"
  exact ⟨stored, (message_reads_back_iff documentedEscape_documented hstore
    (by decide)).mpr (by decide +kernel)⟩

/-- The first NUL in the content ends what is read back. -/
theorem message_reads_back_fails_nul :
    ∃ stored record, MySQLMessageRepo.storeText
        (messageServer documentedEscape) (bytesOf "alice") (bytesOf "bob")
        (bytesOf "") (bytesOf "a\x00b") aliceAndBob = (1, stored) ∧
      (MySQLMessageRepo.getText (messageServer documentedEscape) 1
        stored).1 = some record ∧
      record.content = bytesOf "a" ∧
      ¬ ReadsBack (messageServer documentedEscape) stored 1 "alice" "bob"
        "a\x00b" := by
  obtain ⟨stored, hstore⟩ := exists_storeText_aliceAndBob "a\x00b"
  obtain ⟨row, hstored, -, -, hrow⟩ :=
    stored_storeText documentedEscape_documented hstore (by decide)
  obtain ⟨record, hrecord, -, -, hcontent⟩ :=
    getText_of_stored documentedEscape_documented hstored
  have hshort : cString (bytesOf "a\x00b") = bytesOf "a" := by
    decide +kernel
  rw [hrow, hshort] at hcontent
  refine ⟨stored, record, hstore, hrecord, hcontent, ?_⟩
  intro hreads
  obtain ⟨same, hsame, -, -, hwhole⟩ := hreads.message stored .refl
  rw [hrecord] at hsame
  cases hsame
  have hne : bytesOf "a" ≠ bytesOf "a\x00b" := by
    decide +kernel
  exact hne (hcontent.symm.trans hwhole)

end MuduoChat
