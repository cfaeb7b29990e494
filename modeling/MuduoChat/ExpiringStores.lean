import Mathlib.Logic.Function.Basic
import Mathlib.Data.Option.Basic
import Mathlib.Data.Int.Order.Basic
import Mathlib.Data.List.Basic

/-!
# Stores with expiring keys

A store maps keys to texts or to hashes of fields, and a key may have a
deadline.  Time is counted in milliseconds; a key is there as long as the
clock has not passed its deadline, and every operation sees a key that has
expired as absent.

An operation meant for a hash leaves a text alone.  Writing fields keeps the
deadline, writing a text clears it, and a hash whose last field is removed
is gone.
-/

namespace MuduoChat

inductive StoredValue (Field Data : Type) where
  | text (data : Data)
  | hash (fields : List (Field × Data))

structure StoredEntry (Field Data : Type) where
  value : StoredValue Field Data
  deadline : Option Int := none

structure ExpiringStore (Key Field Data : Type) where
  entries : Key → Option (StoredEntry Field Data) := fun _ => none
  clock : Int := 0

namespace ExpiringStore

variable {Key Field Data : Type}

/-! ## Fields of a hash -/

section Fields

variable [DecidableEq Field]

def getField (fields : List (Field × Data)) (field : Field) : Option Data :=
  (fields.find? fun entry => entry.1 = field).map Prod.snd

def eraseField (fields : List (Field × Data)) (field : Field) :
    List (Field × Data) :=
  fields.filter fun entry => entry.1 ≠ field

/-- Later assignments win. -/
def setFields (fields : List (Field × Data)) :
    List (Field × Data) → List (Field × Data)
  | [] => fields
  | entry :: rest => setFields (entry :: eraseField fields entry.1) rest

@[simp] theorem getField_nil (field : Field) :
    getField ([] : List (Field × Data)) field = none := rfl

theorem getField_cons (entry : Field × Data) (fields : List (Field × Data))
    (field : Field) :
    getField (entry :: fields) field =
      if entry.1 = field then some entry.2 else getField fields field := by
  unfold getField
  rw [List.find?_cons]
  by_cases heq : entry.1 = field <;> simp [heq]

theorem getField_eraseField (fields : List (Field × Data))
    (erased field : Field) :
    getField (eraseField fields erased) field =
      if field = erased then none else getField fields field := by
  induction fields with
  | nil => simp [eraseField]
  | cons entry rest ih =>
      unfold eraseField at ih ⊢
      rw [List.filter_cons]
      by_cases hentry : entry.1 = erased
      · simp only [hentry, ne_eq, not_true_eq_false, decide_false,
          Bool.false_eq_true, if_false, ih, getField_cons]
        by_cases hfield : field = erased
        · simp [hfield]
        · simp [hfield, Ne.symm hfield]
      · simp only [hentry, ne_eq, not_false_eq_true, decide_true, if_true,
          getField_cons, ih]
        by_cases hfield : field = erased
        · simp [hfield, hentry]
        · simp [hfield]

theorem getField_setFields_of_not_mem {assigned : List (Field × Data)}
    {field : Field} (hfield : field ∉ assigned.map Prod.fst)
    (fields : List (Field × Data)) :
    getField (setFields fields assigned) field = getField fields field := by
  induction assigned generalizing fields with
  | nil => rfl
  | cons entry rest ih =>
      simp only [List.map_cons, List.mem_cons, not_or] at hfield
      rw [setFields, ih hfield.2, getField_cons, getField_eraseField,
        if_neg (Ne.symm hfield.1), if_neg hfield.1]

theorem getField_setFields_of_mem {assigned : List (Field × Data)}
    (hdistinct : (assigned.map Prod.fst).Nodup) {entry : Field × Data}
    (hentry : entry ∈ assigned) (fields : List (Field × Data)) :
    getField (setFields fields assigned) entry.1 = some entry.2 := by
  induction assigned generalizing fields with
  | nil => cases hentry
  | cons first rest ih =>
      rw [List.map_cons, List.nodup_cons] at hdistinct
      rcases List.mem_cons.mp hentry with rfl | hrest
      · rw [setFields, getField_setFields_of_not_mem hdistinct.1,
          getField_cons, if_pos rfl]
      · exact ih hdistinct.2 hrest _

end Fields

/-! ## Reading -/

section Reading

def alive (store : ExpiringStore Key Field Data)
    (entry : StoredEntry Field Data) : Bool :=
  entry.deadline.all fun deadline => store.clock ≤ deadline

/-- The entry of a key that has not expired. -/
def live (store : ExpiringStore Key Field Data) (key : Key) :
    Option (StoredEntry Field Data) :=
  (store.entries key).filter store.alive

def value (store : ExpiringStore Key Field Data) (key : Key) :
    Option (StoredValue Field Data) :=
  (store.live key).map StoredEntry.value

def text (store : ExpiringStore Key Field Data) (key : Key) : Option Data :=
  match store.value key with
  | some (.text data) => some data
  | _ => none

def field [DecidableEq Field] (store : ExpiringStore Key Field Data)
    (key : Key) (name : Field) : Option Data :=
  match store.value key with
  | some (.hash fields) => getField fields name
  | _ => none

/-- When the key will expire. -/
def deadline (store : ExpiringStore Key Field Data) (key : Key) :
    Option Int :=
  (store.live key).bind StoredEntry.deadline

variable {store first second : ExpiringStore Key Field Data} {key : Key}

theorem deadline_eq_of_live (hlive : first.live key = second.live key) :
    first.deadline key = second.deadline key := by
  unfold deadline
  rw [hlive]

theorem alive_of_live {entry : StoredEntry Field Data}
    (hlive : store.live key = some entry) : store.alive entry = true :=
  (Option.filter_eq_some_iff.mp hlive).2

theorem value_of_live {entry : StoredEntry Field Data}
    (hlive : store.live key = some entry) :
    store.value key = some entry.value := by
  rw [value, hlive]
  rfl

theorem text_eq_of_live (hlive : first.live key = second.live key) :
    first.text key = second.text key := by
  unfold text value
  rw [hlive]

theorem field_eq_of_live [DecidableEq Field]
    (hlive : first.live key = second.live key) (name : Field) :
    first.field key name = second.field key name := by
  unfold field value
  rw [hlive]

theorem live_of_field [DecidableEq Field] {name : Field} {data : Data}
    (hfield : store.field key name = some data) :
    ∃ entry, store.live key = some entry := by
  cases hlive : store.live key with
  | none => simp [field, value, hlive] at hfield
  | some entry => exact ⟨entry, rfl⟩

theorem field_of_text [DecidableEq Field] {name : Field}
    (htext : store.text key ≠ none) :
    store.field key name = none := by
  unfold text at htext
  unfold field
  split at htext
  · rename_i data hvalue
    rw [hvalue]
  · exact (htext rfl).elim

theorem text_of_field [DecidableEq Field] {name : Field} {data : Data}
    (hfield : store.field key name = some data) :
    store.text key = none := by
  by_contra htext
  rw [field_of_text htext] at hfield
  cases hfield

end Reading

/-! ## Writing -/

section Put

variable [DecidableEq Key]

def put (store : ExpiringStore Key Field Data) (key : Key)
    (entry : Option (StoredEntry Field Data)) :
    ExpiringStore Key Field Data :=
  { store with entries := Function.update store.entries key entry }

def setText (store : ExpiringStore Key Field Data) (key : Key)
    (data : Data) : ExpiringStore Key Field Data :=
  store.put key (some { value := .text data })

def delete (store : ExpiringStore Key Field Data) (key : Key) :
    ExpiringStore Key Field Data :=
  store.put key none

/-- A time to live that is not positive deletes the key at once. -/
def expire (store : ExpiringStore Key Field Data) (key : Key)
    (seconds : Int) : ExpiringStore Key Field Data :=
  match store.live key with
  | none => store
  | some entry =>
      if seconds ≤ 0 then store.put key none
      else
        store.put key (some { entry with
          deadline := some (store.clock + 1000 * seconds) })

variable {store : ExpiringStore Key Field Data} {key other : Key}

theorem live_put_self (entry : StoredEntry Field Data) :
    (store.put key (some entry)).live key =
      if store.alive entry then some entry else none := by
  simp only [live, put, Function.update_self, Option.filter_some]
  rfl

/-- Replacing the value of a live key keeps it alive. -/
theorem value_put_of_live {entry : StoredEntry Field Data}
    (hlive : store.live key = some entry)
    (stored : StoredValue Field Data) :
    (store.put key (some { entry with value := stored })).value key =
      some stored := by
  have hentry : store.alive entry = true := alive_of_live hlive
  have halive : store.alive { entry with value := stored } = true := hentry
  rw [value, live_put_self, if_pos halive]
  rfl

theorem live_put_none : (store.put key none).live key = none := by
  simp [live, put]

theorem live_put_of_ne (hother : other ≠ key)
    (entry : Option (StoredEntry Field Data)) :
    (store.put key entry).live other = store.live other := by
  simp only [live, put, Function.update_of_ne hother]
  rfl

@[simp] theorem text_setText (data : Data) :
    (store.setText key data).text key = some data := by
  simp [text, value, setText, live_put_self, alive]

@[simp] theorem text_delete : (store.delete key).text key = none := by
  simp [text, value, delete, live_put_none]

@[simp] theorem deadline_setText (data : Data) :
    (store.setText key data).deadline key = none := by
  simp [deadline, setText, live_put_self, alive]

@[simp] theorem deadline_delete :
    (store.delete key).deadline key = none := by
  simp [deadline, delete, live_put_none]

theorem live_expire {seconds : Int} (hseconds : 0 < seconds) :
    (store.expire key seconds).live key =
      (store.live key).map fun entry =>
        { entry with deadline := some (store.clock + 1000 * seconds) } := by
  unfold expire
  split
  · rename_i hlive
    simp [hlive]
  · rename_i entry hlive
    have halive : store.alive { entry with
        deadline := some (store.clock + 1000 * seconds) } = true := by
      simp only [alive, Option.all_some, decide_eq_true_eq]
      omega
    rw [if_neg (by omega), live_put_self, if_pos halive, hlive]
    rfl

theorem deadline_expire {seconds : Int} (hseconds : 0 < seconds) :
    (store.expire key seconds).deadline key =
      (store.live key).map fun _ => store.clock + 1000 * seconds := by
  rw [deadline, live_expire hseconds]
  cases store.live key <;> rfl

theorem live_expire_of_le {seconds : Int} (hseconds : seconds ≤ 0) :
    (store.expire key seconds).live key = none := by
  unfold expire
  split
  · rename_i hlive
    exact hlive
  · rw [if_pos hseconds]
    exact live_put_none

theorem text_expire {seconds : Int} (hseconds : 0 < seconds) :
    (store.expire key seconds).text key = store.text key := by
  simp only [text, value, live_expire hseconds, Option.map_map]
  rfl

end Put

def advance (store : ExpiringStore Key Field Data) (millis : Nat) :
    ExpiringStore Key Field Data :=
  { store with clock := store.clock + millis }

theorem live_advance {store : ExpiringStore Key Field Data} {key : Key}
    {millis : Nat} {entry : StoredEntry Field Data}
    (hlive : (store.advance millis).live key = some entry) :
    store.live key = some entry := by
  obtain ⟨hentry, halive⟩ := Option.filter_eq_some_iff.mp hlive
  refine Option.filter_eq_some_iff.mpr ⟨hentry, ?_⟩
  unfold alive at halive ⊢
  cases hdeadline : entry.deadline with
  | none => rfl
  | some deadline =>
      have hlater : store.clock + millis ≤ deadline := by
        have hall := halive
        rw [hdeadline] at hall
        exact of_decide_eq_true hall
      simp only [Option.all_some, decide_eq_true_eq]
      omega

/-- A key whose deadline is not passed is still there. -/
theorem live_advance_of_le {store : ExpiringStore Key Field Data} {key : Key}
    {millis : Nat}
    (hdeadline : ∀ deadline, store.deadline key = some deadline →
      store.clock + millis ≤ deadline) :
    (store.advance millis).live key = store.live key := by
  cases hlive : store.live key with
  | none =>
      cases hlater : (store.advance millis).live key with
      | none => rfl
      | some entry =>
          rw [live_advance hlater] at hlive
          cases hlive
  | some entry =>
      refine Option.filter_eq_some_iff.mpr
        ⟨(Option.filter_eq_some_iff.mp hlive).1, ?_⟩
      unfold alive
      cases hentry : entry.deadline with
      | none => rfl
      | some deadline =>
          have hle := hdeadline deadline (by simp [ExpiringStore.deadline,
            hlive, hentry])
          exact decide_eq_true hle

theorem live_advance_of_lt {store : ExpiringStore Key Field Data} {key : Key}
    {millis : Nat} {deadline : Int}
    (hdeadline : store.deadline key = some deadline)
    (hlt : deadline < store.clock + millis) :
    (store.advance millis).live key = none := by
  cases hlater : (store.advance millis).live key with
  | none => rfl
  | some entry =>
      have hentry : entry.deadline = some deadline := by
        simpa [ExpiringStore.deadline, live_advance hlater] using hdeadline
      have halive := alive_of_live hlater
      rw [alive, hentry] at halive
      have hle : store.clock + millis ≤ deadline :=
        of_decide_eq_true halive
      omega

theorem field_advance [DecidableEq Field]
    {store : ExpiringStore Key Field Data} {key : Key} {name : Field}
    {data : Data} {millis : Nat}
    (hfield : (store.advance millis).field key name = some data) :
    store.field key name = some data := by
  cases hlive : (store.advance millis).live key with
  | none => simp [field, value, hlive] at hfield
  | some entry =>
      have hsame : store.live key = (store.advance millis).live key := by
        rw [live_advance hlive, hlive]
      rw [field_eq_of_live hsame]
      exact hfield

section Hash

variable [DecidableEq Key] [DecidableEq Field]

def setHash (store : ExpiringStore Key Field Data) (key : Key)
    (assigned : List (Field × Data)) : ExpiringStore Key Field Data :=
  match store.live key with
  | none => store.put key (some { value := .hash (setFields [] assigned) })
  | some { value := .hash fields, deadline } =>
      store.put key (some {
        value := .hash (setFields fields assigned), deadline })
  | some { value := .text _, .. } => store

def deleteField (store : ExpiringStore Key Field Data) (key : Key)
    (name : Field) : ExpiringStore Key Field Data :=
  match store.live key with
  | some { value := .hash fields, deadline } =>
      if (eraseField fields name).isEmpty then store.put key none
      else
        store.put key (some {
          value := .hash (eraseField fields name), deadline })
  | _ => store

end Hash

/-! ## Commands -/

end ExpiringStore

inductive StoreCommand (Key Field Data : Type) where
  | hmset (key : Key) (assigned : List (Field × Data))
  | hset (key : Key) (name : Field) (data : Data)
  | hmget (key : Key) (names : List Field)
  | hdel (key : Key) (name : Field)
  | set (key : Key) (data : Data)
  | get (key : Key)
  | del (key : Key)
  | expire (key : Key) (seconds : Int)
  deriving DecidableEq

/-- Replies are told apart as far as a client looks at them. -/
inductive StoreReply (Data : Type) where
  | array (elements : List (Option Data))
  | other
  deriving DecidableEq

namespace StoreCommand

variable {Key Field Data : Type}

def key : StoreCommand Key Field Data → Key
  | hmset key _ | hset key _ _ | hmget key _ | hdel key _ | set key _
  | get key | del key | expire key _ => key

end StoreCommand

namespace ExpiringStore

variable {Key Field Data : Type} [DecidableEq Key] [DecidableEq Field]

def execute (store : ExpiringStore Key Field Data) :
    StoreCommand Key Field Data → ExpiringStore Key Field Data
  | .hmset key assigned => store.setHash key assigned
  | .hset key name data => store.setHash key [(name, data)]
  | .hdel key name => store.deleteField key name
  | .set key data => store.setText key data
  | .del key => store.delete key
  | .expire key seconds => store.expire key seconds
  | .hmget .. | .get _ => store

def reply (store : ExpiringStore Key Field Data) :
    StoreCommand Key Field Data → StoreReply Data
  | .hmget key names =>
      match store.text key with
      | some _ => .other
      | none => .array (names.map (store.field key))
  | _ => .other

/-! ## What reading sees after writing -/

variable {store : ExpiringStore Key Field Data} {key other : Key}
  {name : Field} {data : Data}

/-- A command changes what is read from its own key only. -/
theorem live_execute_of_ne {command : StoreCommand Key Field Data}
    (hother : other ≠ command.key) :
    (store.execute command).live other = store.live other := by
  cases command with
  | hmset key assigned =>
      simp only [execute, setHash]
      split <;> first | exact live_put_of_ne hother _ | rfl
  | hset key name data =>
      simp only [execute, setHash]
      split <;> first | exact live_put_of_ne hother _ | rfl
  | hdel key name =>
      simp only [execute, deleteField]
      split
      · split <;> exact live_put_of_ne hother _
      · rfl
  | set key data => exact live_put_of_ne hother _
  | del key => exact live_put_of_ne hother _
  | expire key seconds =>
      simp only [execute, expire]
      split
      · rfl
      · split <;> exact live_put_of_ne hother _
  | hmget key names => rfl
  | get key => rfl

theorem clock_execute (command : StoreCommand Key Field Data) :
    (store.execute command).clock = store.clock := by
  cases command with
  | hmset key assigned | hset key name data =>
      simp only [execute, setHash]
      split <;> rfl
  | hdel key name =>
      simp only [execute, deleteField]
      split
      · split <;> rfl
      · rfl
  | expire key seconds =>
      simp only [execute, expire]
      split
      · rfl
      · split <;> rfl
  | _ => rfl

@[simp] theorem field_setText :
    (store.setText key data).field key name = none := by
  simp [field, value, setText, live_put_self, alive]

@[simp] theorem field_delete :
    (store.delete key).field key name = none := by
  simp [field, value, delete, live_put_none]

theorem value_setHash (assigned : List (Field × Data))
    (htext : store.text key = none) :
    ∃ fields, (store.setHash key assigned).value key =
        some (.hash (setFields fields assigned)) ∧
      ∀ name, store.field key name = getField fields name := by
  unfold setHash
  split
  · rename_i hlive
    refine ⟨[], by simp [value, live_put_self, alive], ?_⟩
    simp [field, value, hlive]
  · rename_i fields deadline hlive
    refine ⟨fields, ?_, ?_⟩
    · exact value_put_of_live hlive _
    · simp [field, value_of_live hlive]
  · rename_i data deadline hlive
    simp [text, value_of_live hlive] at htext

theorem setHash_of_text {assigned : List (Field × Data)}
    (htext : store.text key ≠ none) : store.setHash key assigned = store := by
  unfold setHash
  split
  · rename_i hlive
    simp [text, value, hlive] at htext
  · rename_i fields deadline hlive
    simp [text, value_of_live hlive] at htext
  · rfl

theorem field_setHash_of_mem {assigned : List (Field × Data)}
    (htext : store.text key = none)
    (hdistinct : (assigned.map Prod.fst).Nodup)
    (hentry : (name, data) ∈ assigned) :
    (store.setHash key assigned).field key name = some data := by
  obtain ⟨fields, hvalue, _⟩ := value_setHash assigned htext
  simp only [field, hvalue]
  exact getField_setFields_of_mem hdistinct hentry fields

theorem field_setHash_of_not_mem {assigned : List (Field × Data)}
    (hname : name ∉ assigned.map Prod.fst) :
    (store.setHash key assigned).field key name = store.field key name := by
  by_cases htext : store.text key = none
  · obtain ⟨fields, hvalue, hfield⟩ := value_setHash assigned htext
    rw [hfield]
    simp only [field, hvalue]
    exact getField_setFields_of_not_mem hname fields
  · rw [setHash_of_text htext]

@[simp] theorem text_setHash (assigned : List (Field × Data)) :
    (store.setHash key assigned).text key = store.text key := by
  by_cases htext : store.text key = none
  · obtain ⟨fields, hvalue, _⟩ := value_setHash assigned htext
    rw [htext]
    simp [text, hvalue]
  · rw [setHash_of_text htext]

theorem deadline_setHash (assigned : List (Field × Data)) :
    (store.setHash key assigned).deadline key = store.deadline key := by
  unfold setHash
  split
  · rename_i hlive
    simp [deadline, live_put_self, alive, hlive]
  · rename_i fields deadline hlive
    have hentry : store.alive { value := .hash fields, deadline } = true :=
      alive_of_live hlive
    have halive : store.alive {
        value := .hash (setFields fields assigned), deadline } = true :=
      hentry
    simp [ExpiringStore.deadline, live_put_self, hlive, halive]
  · rfl

theorem deadline_deleteField (hnone : store.deadline key = none) :
    (store.deleteField key name).deadline key = none := by
  unfold deleteField
  split
  · rename_i fields deadline hlive
    have hdeadline : deadline = none := by
      rwa [ExpiringStore.deadline, hlive] at hnone
    subst hdeadline
    split
    · simp [ExpiringStore.deadline, live_put_none]
    · simp [ExpiringStore.deadline, live_put_self, alive]
  · exact hnone

theorem value_deleteField (name : Field)
    (hhash : store.text key = none) :
    ∃ fields, (∀ name, store.field key name = getField fields name) ∧
      ((store.deleteField key name).value key = none ∧
          eraseField fields name = [] ∨
        (store.deleteField key name).value key =
          some (.hash (eraseField fields name))) := by
  unfold deleteField
  split
  · rename_i fields deadline hlive
    refine ⟨fields, by simp [field, value_of_live hlive], ?_⟩
    split
    · rename_i hempty
      exact .inl ⟨by simp [value, live_put_none],
        List.isEmpty_iff.mp hempty⟩
    · exact .inr (value_put_of_live hlive _)
  · rename_i hother
    have hnone : store.value key = none := by
      cases hlive : store.live key with
      | none => simp [value, hlive]
      | some entry =>
          cases entry with
          | mk stored deadline =>
              cases stored with
              | text data => simp [text, value_of_live hlive] at hhash
              | hash fields => exact (hother fields deadline hlive).elim
    exact ⟨[], by simp [field, hnone], .inl ⟨hnone, rfl⟩⟩

theorem deleteField_of_text (htext : store.text key ≠ none) :
    store.deleteField key name = store := by
  unfold deleteField
  split
  · rename_i fields deadline hlive
    simp [text, value_of_live hlive] at htext
  · rfl

@[simp] theorem text_deleteField :
    (store.deleteField key name).text key = store.text key := by
  by_cases htext : store.text key = none
  · obtain ⟨fields, _, hvalue | hvalue⟩ :=
      value_deleteField name htext
    · rw [htext]
      simp [text, hvalue.1]
    · rw [htext]
      simp [text, hvalue]
  · rw [deleteField_of_text htext]

theorem field_deleteField (erased : Field) :
    (store.deleteField key erased).field key name =
      if name = erased then none else store.field key name := by
  by_cases htext : store.text key = none
  · obtain ⟨fields, hfield, hvalue | hvalue⟩ :=
      value_deleteField erased htext
    · rw [hfield, ← getField_eraseField, hvalue.2]
      simp [field, hvalue.1]
    · rw [hfield, ← getField_eraseField]
      simp [field, hvalue]
  · rw [deleteField_of_text htext, field_of_text htext]
    simp

theorem field_expire {seconds : Int} (hseconds : 0 < seconds) :
    (store.expire key seconds).field key name = store.field key name := by
  simp only [field, value, live_expire hseconds, Option.map_map]
  rfl

theorem field_of_field_expire {seconds : Int}
    (hfield : (store.expire key seconds).field key name = some data) :
    store.field key name = some data := by
  by_cases hseconds : 0 < seconds
  · rwa [field_expire hseconds] at hfield
  · unfold expire at hfield
    split at hfield
    · exact hfield
    · rw [if_pos (by omega)] at hfield
      simp [field, value, live_put_none] at hfield

end ExpiringStore

end MuduoChat
