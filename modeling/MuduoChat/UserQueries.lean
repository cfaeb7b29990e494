import MuduoChat.RepoQueries
import Mathlib.Data.List.TakeWhile

/-!
# The queries of the user repository

Unlike the other repositories, `MySQLUserRepo` puts uids and passwords into
its texts as they are; only the `INSERT` of a registration escapes the uid,
the nickname and the email.  Its methods are modelled here on the bytes of
their texts.  The server is a parameter: it reads the tokens of a text, up to
the first NUL, and whatever it does depends on the tokens alone.
-/

namespace MuduoChat

open SqlTexts

/-- An argument as it is put into a text. -/
inductive Splice where
  | raw (value : Text)
  | escaped (value : Text)

def Splice.encode (realEscape : Text → Text) : Splice → Text
  | raw value => value
  | escaped value => escape realEscape value

inductive UserQuery (Value : Type) where
  | selectUid (uid : Value)
  | insertUser (uid nickname email passwd : Value)
  | selectVerified (uid passwd : Value)
  | updateLastLogin (uid : Value)
  | selectUser (uid : Value)
  deriving DecidableEq

def UserQuery.sql {Value : Type} :
    UserQuery Value → List (Piece Value Empty)
  | selectUid uid =>
      [.text "SELECT uid FROM users WHERE uid = '", .literal uid, .text "'"]
  | insertUser uid nickname email passwd =>
      [.text "INSERT INTO users (uid, nickname, email, passwd) VALUES ('",
        .literal uid, .text "', '", .literal nickname, .text "', '",
        .literal email, .text "', SHA2('", .literal passwd,
        .text "', 256))"]
  | selectVerified uid passwd =>
      [.text "SELECT uid FROM users WHERE uid = '", .literal uid,
        .text "' AND passwd = SHA2('", .literal passwd, .text "', 256)"]
  | updateLastLogin uid =>
      [.text "UPDATE users SET last_login = NOW() WHERE uid = '",
        .literal uid, .text "'"]
  | selectUser uid =>
      [.text "SELECT uid, nickname, email, avatar_url FROM users ",
        .text "WHERE uid = '", .literal uid, .text "'"]

namespace UserQuery

variable {Value Other : Type}

def map (onValue : Value → Other) : UserQuery Value → UserQuery Other
  | selectUid uid => selectUid (onValue uid)
  | insertUser uid nickname email passwd =>
      insertUser (onValue uid) (onValue nickname) (onValue email)
        (onValue passwd)
  | selectVerified uid passwd =>
      selectVerified (onValue uid) (onValue passwd)
  | updateLastLogin uid => updateLastLogin (onValue uid)
  | selectUser uid => selectUser (onValue uid)

theorem sql_map (onValue : Value → Other) (query : UserQuery Value) :
    (query.map onValue).sql = query.sql.map (Piece.map onValue id) := by
  cases query <;> rfl

theorem isSome_skeleton_unit (query : UserQuery Unit) :
    (skeleton query.sql).isSome := by
  cases query <;> casesm* Unit <;> decide +kernel

theorem nulFree_unit (query : UserQuery Unit) :
    query.sql.all Piece.NulFree = true := by
  cases query <;> casesm* Unit <;> decide +kernel

theorem exists_skeleton (query : UserQuery Value) :
    ∃ slots, skeleton query.sql = some slots := by
  have hunit := isSome_skeleton_unit (query.map fun _ => ())
  rw [sql_map, skeleton_map, Option.isSome_map] at hunit
  exact Option.isSome_iff_exists.mp hunit

theorem nulFree (query : UserQuery Value) :
    query.sql.all Piece.NulFree = true := by
  have hunit := nulFree_unit (query.map fun _ => ())
  rw [sql_map, List.all_map] at hunit
  rw [← hunit]
  congr 1
  funext piece
  cases piece <;> rfl

/-- The tokens of the query with these literals. -/
def tokens (query : UserQuery Text) : List Token :=
  ((skeleton query.sql).getD []).flatMap (Slot.tokens id Empty.elim)

end UserQuery

/-! ## The server -/

/-- What `mysql_query` and `mysql_store_result` leave the caller with. -/
inductive Reply where
  | error
  | noResult
  | rows (rows : List (List (Option Text)))
  deriving DecidableEq

def Reply.hasRows : Reply → Bool
  | .rows found => !found.isEmpty
  | _ => false

/-- The bytes before the first NUL, all that a C string passes on. -/
def cString (text : Text) : Text :=
  text.takeWhile (· ≠ 0)

structure SqlServer (σ : Type) where
  realEscape : Text → Text
  exec : List Token → σ → Reply × σ

namespace SqlServer

variable {σ : Type} (server : SqlServer σ)

def text (query : UserQuery Splice) : Text :=
  render (Splice.encode server.realEscape) Empty.elim query.sql

/-- A text that ends within a literal or a comment is a syntax error. -/
def query (query : UserQuery Splice) (state : σ) : Reply × σ :=
  match lex (cString (server.text query)) with
  | none => (.error, state)
  | some tokens => server.exec tokens state

/-! ## The repository -/

def registerUser (uid passwd nickname email : Text) (state : σ) :
    Bool × σ :=
  let (found, state) := server.query (.selectUid (.raw uid)) state
  if found = .error then (false, state)
  else if found.hasRows then (false, state)
  else
    let nick : Splice :=
      if nickname = [] then .raw uid else .escaped nickname
    let (inserted, state) := server.query
      (.insertUser (.escaped uid) nick (.escaped email) (.raw passwd)) state
    (inserted ≠ .error, state)

theorem exists_of_registerUser {server : SqlServer σ}
    {uid passwd nickname email : Text} {state after : σ}
    (hregistered : server.registerUser uid passwd nickname email state =
      (true, after)) :
    ∃ found middle inserted,
      server.query (.selectUid (.raw uid)) state = (found, middle) ∧
      found.hasRows = false ∧
      server.query (.insertUser (.escaped uid)
        (if nickname = [] then .raw uid else .escaped nickname)
        (.escaped email) (.raw passwd)) middle = (inserted, after) ∧
      inserted ≠ .error := by
  unfold registerUser at hregistered
  dsimp only at hregistered
  split at hregistered
  · cases hregistered
  · split at hregistered
    · cases hregistered
    · rename_i hfound
      obtain ⟨hinserted, rfl⟩ := Prod.mk.inj hregistered
      simp only [Bool.not_eq_true] at hfound
      simp only [ne_eq, decide_eq_true_eq] at hinserted
      exact ⟨_, _, _, rfl, hfound, rfl, hinserted⟩

/-- One round of the loop in `verifyUser`: whether there are rows, unless
there is no result. -/
def attempt (uid passwd : Text) (state : σ) : Option Bool × σ :=
  let (found, state) := server.query
    (.selectVerified (.raw uid) (.raw passwd)) state
  match found with
  | .rows rows => (some (!rows.isEmpty), state)
  | _ => (none, state)

/-- What `verifyUser` does after its loop. -/
def conclude (uid : Text) (ok : Bool) (state : σ) : Bool × σ :=
  if ok then
    (ok, (server.query (.updateLastLogin (.raw uid)) state).2)
  else (ok, state)

def verifyUser (uid passwd : Text) (state : σ) : Bool × σ :=
  match server.attempt uid passwd state with
  | (some ok, state) => server.conclude uid ok state
  | (none, state) =>
      match server.attempt uid passwd state with
      | (some ok, state) => server.conclude uid ok state
      | (none, state) => server.conclude uid false state

end SqlServer

structure UserRecord where
  uid : Text
  nickname : Text
  email : Text
  avatarUrl : Text

/-- A column of a fetched row, empty where it is `NULL`. -/
def column (row : List (Option Text)) (index : ℕ) : Text :=
  ((row.getD index none).map cString).getD []

def SqlServer.getUserInfo {σ : Type} (server : SqlServer σ) (uid : Text)
    (state : σ) : Option UserRecord × σ :=
  let (found, state) := server.query (.selectUser (.raw uid)) state
  match found with
  | .rows (row :: _) =>
      (some ⟨column row 0, column row 1, column row 2, column row 3⟩, state)
  | _ => (none, state)

/-! ## Do registration and password check agree? -/

namespace SqlServer

variable {σ : Type} {server : SqlServer σ}

/-- Of all passwords, the check takes the registered one, and the record
found has the registered uid. -/
def Agrees (server : SqlServer σ) (uid passwd : Text) (state : σ) : Prop :=
  (∀ tried, (server.verifyUser uid tried state).1 = true ↔
    tried = passwd) ∧
  ∃ info, (server.getUserInfo uid state).1 = some info ∧ info.uid = uid

/-- The password, the end of the statement, and the start of a comment. -/
def commented (passwd : Text) : Text :=
  passwd ++ (bytesOf "', 256)" ++ commentStart)

theorem text_commented (uid passwd : Text) :
    server.text (.selectVerified (.raw uid) (.raw (commented passwd))) =
      server.text (.selectVerified (.raw uid) (.raw passwd)) ++
        (commentStart ++ bytesOf "', 256)") := by
  simp only [text, UserQuery.sql, render, List.flatMap_cons, List.flatMap_nil,
    Piece.render, Splice.encode, commented, List.append_assoc,
    List.append_nil]

/-- The added comment changes nothing, be it cut off with the rest of the text
after a NUL or read. -/
theorem lex_commented {uid passwd : Text} {tokens : List Token}
    (hlex : lex (cString (server.text
      (.selectVerified (.raw uid) (.raw passwd)))) = some tokens) :
    lex (cString (server.text
      (.selectVerified (.raw uid) (.raw (commented passwd))))) =
        some tokens := by
  have hcomment : cString (commentStart ++ bytesOf "', 256)") =
      commentStart ++ bytesOf "', 256)" := by
    decide +kernel
  have hline : newline ∉ bytesOf "', 256)" := by
    decide +kernel
  rw [text_commented]
  unfold cString at hcomment hlex ⊢
  rw [List.takeWhile_append]
  split
  · rename_i hwhole
    have hself := (List.takeWhile_prefix (fun byte : UInt8 =>
      decide (byte ≠ 0))).eq_of_length hwhole
    rw [hself] at hlex
    rw [hcomment]
    exact lex_comment hlex hline
  · exact hlex

theorem attempt_commented {uid passwd : Text} {tokens : List Token}
    (hlex : lex (cString (server.text
      (.selectVerified (.raw uid) (.raw passwd)))) = some tokens)
    (state : σ) :
    server.attempt uid (commented passwd) state =
      server.attempt uid passwd state := by
  unfold attempt query
  rw [lex_commented hlex, hlex]

theorem attempt_of_lex_none {uid passwd : Text}
    (hlex : lex (cString (server.text
      (.selectVerified (.raw uid) (.raw passwd)))) = none) (state : σ) :
    server.attempt uid passwd state = (none, state) := by
  unfold attempt query
  rw [hlex]

/-- Whatever password is accepted, so is the same with the end of the
statement and a comment behind it. -/
theorem verifyUser_commented {uid passwd : Text} {state : σ}
    (hverified : (server.verifyUser uid passwd state).1 = true) :
    (server.verifyUser uid (commented passwd) state).1 = true := by
  cases hlex : lex (cString (server.text
      (.selectVerified (.raw uid) (.raw passwd)))) with
  | none =>
      unfold verifyUser at hverified
      rw [attempt_of_lex_none hlex] at hverified
      simp only [attempt_of_lex_none hlex] at hverified
      cases hverified
  | some tokens =>
      have hattempt := attempt_commented hlex
      unfold verifyUser at hverified ⊢
      simpa only [hattempt] using hverified

/-- On every server and in every state, registered or not, the check takes no
password or more than one. -/
theorem registration_check_disagree (server : SqlServer σ) (state : σ)
    (uid passwd nickname email : Text) :
    ¬ server.Agrees uid passwd
      (server.registerUser uid passwd nickname email state).2 := by
  rintro ⟨hcheck, -⟩
  have hverified := (hcheck passwd).mpr rfl
  have hsame : commented passwd = passwd :=
    (hcheck (commented passwd)).mp (verifyUser_commented hverified)
  have hlength := congrArg List.length hsame
  simp [commented, commentStart] at hlength

end SqlServer

/-! ## A server with a table of users -/

structure UserRow where
  uid : Text
  nickname : Text
  email : Text
  digest : Text
  deriving DecidableEq

namespace UserQuery

/-- What MySQL does for a query.  `accepts` says which rows the columns of the
table can hold. -/
def run (sha2 : Text → Text) (accepts : UserRow → Bool)
    (users : List UserRow) : UserQuery Text → Reply × List UserRow
  | selectUid uid =>
      (.rows ((users.filter fun user => user.uid = uid).map fun user =>
        [some user.uid]), users)
  | insertUser uid nickname email passwd =>
      let user : UserRow := ⟨uid, nickname, email, sha2 passwd⟩
      if users.any (fun other => other.uid = uid) || !accepts user then
        (.error, users)
      else (.noResult, users ++ [user])
  | selectVerified uid passwd =>
      (.rows ((users.filter fun user =>
        user.uid = uid && user.digest = sha2 passwd).map fun user =>
          [some user.uid]), users)
  | updateLastLogin _ => (.noResult, users)
  | selectUser uid =>
      (.rows ((users.filter fun user => user.uid = uid).map fun user =>
        [some user.uid, some user.nickname, some user.email, none]), users)

def literals (tokens : List Token) : List Text :=
  tokens.filterMap fun
    | .literal value => some value
    | _ => none

/-- The queries with these literals. -/
def candidates : List Text → List (UserQuery Text)
  | [uid] => [.selectUid uid, .updateLastLogin uid, .selectUser uid]
  | [uid, passwd] => [.selectVerified uid passwd]
  | [uid, nickname, email, passwd] =>
      [.insertUser uid nickname email passwd]
  | _ => []

def ofTokens? (tokens : List Token) : Option (UserQuery Text) :=
  (candidates (literals tokens)).find? fun query =>
    query.tokens = tokens

/-- Only the holes of a query are literals. -/
def holesOnly {Value Number : Type} : Slot Value Number → Bool
  | .token (.literal _) => false
  | _ => true

theorem holesOnly_unit (query : UserQuery Unit) :
    ((skeleton query.sql).getD []).all holesOnly = true := by
  cases query <;> casesm* Unit <;> decide +kernel

theorem literals_slots {slots : List (Slot Text Empty)}
    (hholes : slots.all holesOnly = true) :
    literals (slots.flatMap (Slot.tokens id Empty.elim)) =
      slots.filterMap Slot.value? := by
  induction slots with
  | nil => rfl
  | cons slot rest ih =>
      rw [List.all_cons, Bool.and_eq_true] at hholes
      have hrest := ih hholes.2
      have hslot : literals (Slot.tokens id Empty.elim slot) =
          (Slot.value? slot).toList := by
        cases slot with
        | token fixed => cases fixed <;> first | rfl | cases hholes.1
        | literal value => rfl
        | number value => exact value.elim
      unfold literals at hrest hslot ⊢
      rw [List.flatMap_cons, List.filterMap_append, hslot, hrest]
      cases hvalue : slot.value? <;> simp [hvalue]

theorem skeleton_unit {Value : Type} {query : UserQuery Value}
    {slots : List (Slot Value Empty)}
    (hslots : skeleton query.sql = some slots) :
    (skeleton (query.map fun _ => ()).sql).getD [] =
      slots.map (Slot.map (fun _ => ()) id) := by
  rw [sql_map, skeleton_map, hslots]
  rfl

theorem literals_tokens (query : UserQuery Text) :
    literals query.tokens = query.sql.filterMap Piece.value? := by
  obtain ⟨slots, hslots⟩ := query.exists_skeleton
  have hholes : slots.all holesOnly = true := by
    have hunit := holesOnly_unit (query.map fun _ => ())
    rw [skeleton_unit hslots, List.all_map] at hunit
    rw [← hunit]
    congr 1
    funext slot
    cases slot with
    | token fixed => cases fixed <;> rfl
    | _ => rfl
  rw [tokens, hslots, Option.getD_some, literals_slots hholes,
    values_skeleton hslots]

theorem length_tokens (query : UserQuery Text) :
    query.tokens.length =
      ((skeleton (query.map fun _ => ()).sql).getD []).length := by
  obtain ⟨slots, hslots⟩ := query.exists_skeleton
  rw [skeleton_unit hslots, List.length_map, tokens, hslots,
    Option.getD_some, List.length_flatMap]
  have hone : ∀ slot : Slot Text Empty,
      (Slot.tokens id Empty.elim slot).length = 1 := by
    intro slot
    cases slot with
    | token fixed => rfl
    | literal value => rfl
    | number value => exact value.elim
  simp [hone]

/-- The tokens tell the query. -/
theorem ofTokens?_tokens (query : UserQuery Text) :
    ofTokens? query.tokens = some query := by
  have hlengths : ∀ first second : UserQuery Text,
      ((skeleton (first.map fun _ => ()).sql).getD []).length ≠
        ((skeleton (second.map fun _ => ()).sql).getD []).length →
      first.tokens ≠ second.tokens := by
    intro first second hne heq
    exact hne (by rw [← length_tokens, ← length_tokens, heq])
  unfold ofTokens?
  rw [literals_tokens]
  cases query with
  | selectUid uid =>
      exact List.find?_cons_of_pos (by simp)
  | updateLastLogin uid =>
      have hfirst := hlengths (.selectUid uid) (.updateLastLogin uid) (by
        simp only [map]
        decide +kernel)
      exact (List.find?_cons_of_neg (by simpa using hfirst)).trans
        (List.find?_cons_of_pos (by simp))
  | selectUser uid =>
      have hfirst := hlengths (.selectUid uid) (.selectUser uid) (by
        simp only [map]
        decide +kernel)
      have hsecond := hlengths (.updateLastLogin uid) (.selectUser uid) (by
        simp only [map]
        decide +kernel)
      exact ((List.find?_cons_of_neg (by simpa using hfirst)).trans
        (List.find?_cons_of_neg (by simpa using hsecond))).trans
          (List.find?_cons_of_pos (by simp))
  | selectVerified uid passwd =>
      exact List.find?_cons_of_pos (by simp)
  | insertUser uid nickname email passwd =>
      exact List.find?_cons_of_pos (by simp)

end UserQuery

def usersServer (realEscape sha2 : Text → Text)
    (accepts : UserRow → Bool) : SqlServer (List UserRow) where
  realEscape := realEscape
  exec tokens users :=
    match UserQuery.ofTokens? tokens with
    | none => (.error, users)
    | some query => query.run sha2 accepts users

/-! ### Strings that stay within their quotes -/

/-- Put between quotes as it is, the string is one literal of that value. -/
def SplicedAs (spliced value : Text) : Prop :=
  ReadsAs spliced value ∧ 0 ∉ spliced

theorem splicedAs_escape {realEscape : Text → Text}
    (hdocumented : EscapesAsDocumented realEscape) (value : Text) :
    SplicedAs (escape realEscape value) value := by
  rw [escape_eq hdocumented]
  exact ⟨readsAs_escape value, zero_not_mem_escape value⟩

theorem cString_eq {text : Text} (hnul : 0 ∉ text) : cString text = text := by
  unfold cString
  rw [List.takeWhile_eq_self_iff]
  intro byte hbyte
  simp only [ne_eq, decide_not, Bool.not_eq_true', decide_eq_false_iff_not]
  rintro rfl
  exact hnul hbyte

theorem UserQuery.lex_spliced {query : UserQuery (Text × Text)}
    (hspliced : ∀ value ∈ query.sql.filterMap Piece.value?,
      SplicedAs value.1 value.2) :
    lex (cString (render Prod.fst Empty.elim query.sql)) =
      some (query.map Prod.snd).tokens := by
  obtain ⟨slots, hslots⟩ := query.exists_skeleton
  have hnul : 0 ∉ render Prod.fst Empty.elim query.sql :=
    zero_not_mem_render (fun value hvalue => (hspliced value hvalue).2)
      query.nulFree
  have hlex := @lex_render _ _ Prod.snd Prod.fst Empty.elim query.sql slots
    (fun value hvalue => (hspliced value hvalue).1) hslots
  have htokens : ∀ slot : Slot (Text × Text) Empty,
      Slot.tokens id Empty.elim (Slot.map Prod.snd id slot) =
        Slot.tokens Prod.snd Empty.elim slot := by
    intro slot
    cases slot with
    | token fixed => rfl
    | literal value => rfl
    | number value => exact value.elim
  rw [cString_eq hnul, hlex, tokens, sql_map, skeleton_map, hslots,
    Option.map_some, Option.getD_some, List.flatMap_map]
  simp only [htokens]

section Users

variable {realEscape sha2 : Text → Text} {accepts : UserRow → Bool}

theorem query_spliced {query : UserQuery Splice}
    (read : UserQuery (Text × Text))
    (htext : (usersServer realEscape sha2 accepts).text query =
      render Prod.fst Empty.elim read.sql)
    (hspliced : ∀ value ∈ read.sql.filterMap Piece.value?,
      SplicedAs value.1 value.2)
    (users : List UserRow) :
    (usersServer realEscape sha2 accepts).query query users =
      (read.map Prod.snd).run sha2 accepts users := by
  unfold SqlServer.query
  rw [htext, UserQuery.lex_spliced hspliced]
  show (match UserQuery.ofTokens? _ with
    | none => (Reply.error, users)
    | some query => query.run sha2 accepts users) = _
  rw [UserQuery.ofTokens?_tokens]

variable {uid passwd uidRead passwdRead : Text}

theorem selectUid_spliced (huid : SplicedAs uid uidRead)
    (users : List UserRow) :
    (usersServer realEscape sha2 accepts).query (.selectUid (.raw uid))
        users =
      (UserQuery.selectUid uidRead).run sha2 accepts users :=
  query_spliced (.selectUid (uid, uidRead)) rfl
    (List.forall_mem_singleton.mpr huid) users

theorem selectUser_spliced (huid : SplicedAs uid uidRead)
    (users : List UserRow) :
    (usersServer realEscape sha2 accepts).query (.selectUser (.raw uid))
        users =
      (UserQuery.selectUser uidRead).run sha2 accepts users :=
  query_spliced (.selectUser (uid, uidRead)) rfl
    (List.forall_mem_singleton.mpr huid) users

theorem selectVerified_spliced (huid : SplicedAs uid uidRead)
    (hpasswd : SplicedAs passwd passwdRead) (users : List UserRow) :
    (usersServer realEscape sha2 accepts).query
        (.selectVerified (.raw uid) (.raw passwd)) users =
      (UserQuery.selectVerified uidRead passwdRead).run sha2 accepts users :=
  query_spliced (.selectVerified (uid, uidRead) (passwd, passwdRead)) rfl
    (List.forall_mem_cons.mpr ⟨huid, List.forall_mem_singleton.mpr hpasswd⟩)
    users

/-- The nickname is spliced where it is the uid, and escaped otherwise. -/
theorem insertUser_spliced (hdocumented : EscapesAsDocumented realEscape)
    (huid : SplicedAs uid uidRead) (hpasswd : SplicedAs passwd passwdRead)
    (nickname email : Text) (users : List UserRow) :
    (usersServer realEscape sha2 accepts).query
        (.insertUser (.escaped uid)
          (if nickname = [] then .raw uid else .escaped nickname)
          (.escaped email) (.raw passwd)) users =
      (UserQuery.insertUser uid
        (if nickname = [] then uidRead else nickname) email
          passwdRead).run sha2 accepts users := by
  have hvalues : ∀ {nick nickRead : Text}, SplicedAs nick nickRead →
      ∀ value ∈ [(escape realEscape uid, uid), (nick, nickRead),
        (escape realEscape email, email), (passwd, passwdRead)],
      SplicedAs value.1 value.2 := by
    intro nick nickRead hnick
    simp only [List.forall_mem_cons]
    exact ⟨splicedAs_escape hdocumented uid, hnick,
      splicedAs_escape hdocumented email, hpasswd, List.forall_mem_nil _⟩
  split_ifs with hempty
  · exact query_spliced
      (.insertUser (escape realEscape uid, uid) (uid, uidRead)
        (escape realEscape email, email) (passwd, passwdRead)) rfl
      (hvalues huid) users
  · exact query_spliced
      (.insertUser (escape realEscape uid, uid)
        (escape realEscape nickname, nickname)
        (escape realEscape email, email) (passwd, passwdRead)) rfl
      (hvalues (splicedAs_escape hdocumented nickname)) users

theorem verifyUser_spliced (huid : SplicedAs uid uidRead)
    (hpasswd : SplicedAs passwd passwdRead) (users : List UserRow) :
    ((usersServer realEscape sha2 accepts).verifyUser uid passwd users).1 =
        true ↔
      ∃ user ∈ users, user.uid = uidRead ∧ user.digest = sha2 passwdRead := by
  have hattempt : (usersServer realEscape sha2 accepts).attempt uid passwd
      users = (some (!(users.filter fun user =>
        user.uid = uidRead && user.digest = sha2 passwdRead).isEmpty),
          users) := by
    unfold SqlServer.attempt
    rw [selectVerified_spliced huid hpasswd]
    simp [UserQuery.run]
  unfold SqlServer.verifyUser
  rw [hattempt]
  simp only [SqlServer.conclude]
  split_ifs
  · simp
  · simp

/-- Registration with strings that stay within their quotes looks for the uid
as it is read, and inserts it as it is. -/
theorem registerUser_spliced (hdocumented : EscapesAsDocumented realEscape)
    (huid : SplicedAs uid uidRead) (hpasswd : SplicedAs passwd passwdRead)
    {nickname email : Text} {users after : List UserRow}
    (hregistered : (usersServer realEscape sha2 accepts).registerUser uid
      passwd nickname email users = (true, after)) :
    (∀ user ∈ users, user.uid ≠ uidRead) ∧
    ∃ user : UserRow, user.uid = uid ∧ user.digest = sha2 passwdRead ∧
      after = users ++ [user] := by
  obtain ⟨found, middle, inserted, hfind, hfound, hinsert, hinserted⟩ :=
    SqlServer.exists_of_registerUser hregistered
  rw [selectUid_spliced huid] at hfind
  cases hfind
  rw [insertUser_spliced hdocumented huid hpasswd] at hinsert
  generalize (if nickname = [] then uidRead else nickname) = nick at hinsert
  constructor
  · simpa [Reply.hasRows] using hfound
  · simp only [UserQuery.run] at hinsert
    split at hinsert
    · cases hinsert
      exact absurd rfl hinserted
    · cases hinsert
      exact ⟨_, rfl, rfl, rfl⟩

theorem getUserInfo_spliced (huid : SplicedAs uid uidRead)
    (users : List UserRow) :
    ((usersServer realEscape sha2 accepts).getUserInfo uid users).1.map
        UserRecord.uid =
      (users.find? fun user => user.uid = uidRead).map fun user =>
        cString user.uid := by
  unfold SqlServer.getUserInfo
  rw [selectUser_spliced huid]
  rw [← List.head?_filter]
  simp only [UserQuery.run]
  cases users.filter fun user => user.uid = uidRead with
  | nil => rfl
  | cons user rest => rfl

/-- As long as the uid, the registered password and the one tried stay within
their quotes, a password is accepted when it reads as the registered one, and
then only if the uid reads as itself. -/
theorem registration_check_spliced (hsha2 : Function.Injective sha2)
    (hdocumented : EscapesAsDocumented realEscape)
    {tried triedRead nickname email : Text} {users after : List UserRow}
    (huid : SplicedAs uid uidRead) (hpasswd : SplicedAs passwd passwdRead)
    (htried : SplicedAs tried triedRead)
    (hregistered : (usersServer realEscape sha2 accepts).registerUser uid
      passwd nickname email users = (true, after)) :
    (((usersServer realEscape sha2 accepts).verifyUser uid tried after).1 =
        true ↔ uidRead = uid ∧ triedRead = passwdRead) ∧
    (((usersServer realEscape sha2 accepts).getUserInfo uid after).1.map
      UserRecord.uid = some uid ↔ uidRead = uid) := by
  obtain ⟨hnew, user, huser, hdigest, rfl⟩ :=
    registerUser_spliced hdocumented huid hpasswd hregistered
  constructor
  · rw [verifyUser_spliced huid htried]
    constructor
    · rintro ⟨other, hmem, hother, hsame⟩
      rcases List.mem_append.mp hmem with hold | hlast
      · exact absurd hother (hnew other hold)
      · obtain rfl := List.mem_singleton.mp hlast
        rw [hdigest] at hsame
        exact ⟨hother.symm.trans huser, (hsha2 hsame).symm⟩
    · rintro ⟨hself, rfl⟩
      exact ⟨user, List.mem_append_right users List.mem_cons_self,
        huser.trans hself.symm, hdigest⟩
  · rw [getUserInfo_spliced huid, List.find?_append]
    have hnone : users.find? (fun other => other.uid = uidRead) = none := by
      rw [List.find?_eq_none]
      intro other hother
      simpa using hnew other hother
    rw [hnone, Option.none_or]
    constructor
    · intro hfound
      by_contra hother
      rw [List.find?_cons_of_neg (by simpa [huser] using Ne.symm hother)]
        at hfound
      cases hfound
    · rintro rfl
      rw [List.find?_cons_of_pos (by simpa using huser), Option.map_some,
        huser, cString_eq huid.2]

end Users

/-! ### Passwords that do not -/

/-- Alice registers with the password `a`, and logs in with it or with another
that ends the statement. -/
theorem registration_check_fails_commented :
    let server := usersServer (fun s => s.flatMap escapeByte) id
      (fun _ => true)
    let (ok, users) := server.registerUser (bytesOf "alice") (bytesOf "a")
      [] [] []
    ok = true ∧
    (server.verifyUser (bytesOf "alice") (bytesOf "a") users).1 = true ∧
    (server.verifyUser (bytesOf "alice") (bytesOf "a', 256) -- ") users).1 =
      true ∧
    bytesOf "a', 256) -- " ≠ bytesOf "a" := by
  decide +kernel

end MuduoChat
