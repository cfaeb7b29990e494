import Mathlib.Data.List.Induction
import Mathlib.Data.Set.Insert

/-!
# Sets under calls that add and remove

What a set holds after a history of calls is decided by the last call about
each element.  `AtLast` looks at the last selected item of a list together
with what stands before it, and `LastAdds` says that this item is an addition.

Where an addition counts only after certain other calls, `Since` says that an
item has begun something and that no later one has ended it.

A program may keep codes in place of the elements.  It then answers by the
last call with the same code, and `lastAdds_code_iff` says on which histories
the answer is still the right one.
-/

namespace MuduoChat

/-! ## The last selected item -/

/-- Of the selected items of a list there is a last one, and it fits what
stands before it. -/
def AtLast {β : Type*} (selected : β → Prop) (fits : List β → β → Prop)
    (items : List β) : Prop :=
  ∃ before item after, items = before ++ item :: after ∧ selected item ∧
    (∀ later ∈ after, ¬ selected later) ∧ fits before item

section AtLast

variable {β : Type*} {selected : β → Prop} {fits : List β → β → Prop}
  {items : List β} {last : β}

@[simp] theorem atLast_nil : ¬ AtLast selected fits [] := by
  rintro ⟨before, item, after, hsplit, -⟩
  simp at hsplit

theorem atLast_concat_of_selected (hlast : selected last) :
    AtLast selected fits (items ++ [last]) ↔ fits items last := by
  constructor
  · rintro ⟨before, item, after, hsplit, -, hafter, hfits⟩
    induction after using List.reverseRecOn with
    | nil =>
        obtain ⟨rfl, hitem⟩ := List.append_inj' hsplit rfl
        cases hitem
        exact hfits
    | append_singleton after later =>
        rw [← List.cons_append, ← List.append_assoc] at hsplit
        obtain ⟨-, heq⟩ := List.append_inj' hsplit rfl
        cases heq
        exact (hafter last (by simp) hlast).elim
  · intro hfits
    exact ⟨items, last, [], rfl, hlast, by simp, hfits⟩

theorem atLast_concat_of_not (hlast : ¬ selected last) :
    AtLast selected fits (items ++ [last]) ↔ AtLast selected fits items := by
  constructor
  · rintro ⟨before, item, after, hsplit, hitem, hafter, hfits⟩
    induction after using List.reverseRecOn with
    | nil =>
        obtain ⟨-, heq⟩ := List.append_inj' hsplit rfl
        cases heq
        exact (hlast hitem).elim
    | append_singleton after later =>
        rw [← List.cons_append, ← List.append_assoc] at hsplit
        obtain ⟨hitems, -⟩ := List.append_inj' hsplit rfl
        exact ⟨before, item, after, hitems, hitem,
          fun other hother => hafter other (List.mem_append_left _ hother),
          hfits⟩
  · rintro ⟨before, item, after, rfl, hitem, hafter, hfits⟩
    refine ⟨before, item, after ++ [last], by simp, hitem, ?_, hfits⟩
    intro later hlater
    rcases List.mem_append.mp hlater with hold | hnew
    · exact hafter later hold
    · rw [List.mem_singleton.mp hnew]
      exact hlast

end AtLast

/-! ## Since -/

/-- One item has begun it, as what stands before that item allows, and none
of the later ones has ended it. -/
def Since {β : Type*} (begins : List β → β → Prop) (ends : β → Prop)
    (items : List β) : Prop :=
  ∃ before item after, items = before ++ item :: after ∧
    begins before item ∧ ∀ later ∈ after, ¬ ends later

section Since

variable {β : Type*} {begins : List β → β → Prop} {ends : β → Prop}

@[simp] theorem since_nil : ¬ Since begins ends [] := by
  rintro ⟨before, item, after, hsplit, -⟩
  simp at hsplit

theorem since_concat (items : List β) (last : β) :
    Since begins ends (items ++ [last]) ↔
      begins items last ∨ Since begins ends items ∧ ¬ ends last := by
  constructor
  · rintro ⟨before, item, after, hsplit, hbegins, hafter⟩
    rcases List.eq_nil_or_concat after with rfl | ⟨middle, final, rfl⟩
    · obtain ⟨rfl, hlast⟩ := List.append_inj' hsplit rfl
      cases hlast
      exact .inl hbegins
    · rw [List.concat_eq_append, ← List.cons_append, ← List.append_assoc]
        at hsplit
      obtain ⟨rfl, hlast⟩ := List.append_inj' hsplit rfl
      cases hlast
      rw [List.concat_eq_append, List.forall_mem_append] at hafter
      exact .inr ⟨⟨before, item, middle, rfl, hbegins, hafter.1⟩,
        hafter.2 last List.mem_cons_self⟩
  · rintro (hbegins | ⟨⟨before, item, after, rfl, hbegins, hafter⟩, hlast⟩)
    · exact ⟨items, last, [], rfl, hbegins, by simp⟩
    · refine ⟨before, item, after ++ [last], by simp, hbegins, ?_⟩
      rw [List.forall_mem_append]
      exact ⟨hafter, by simpa using hlast⟩

end Since

/-! ## Calls -/

inductive SetCall (α : Type*) where
  | add (value : α)
  | remove (value : α)

namespace SetCall

variable {α γ : Type*}

def arg : SetCall α → α
  | .add value | .remove value => value

def Adds : SetCall α → Prop
  | .add _ => True
  | .remove _ => False

def map (code : α → γ) : SetCall α → SetCall γ
  | .add value => .add (code value)
  | .remove value => .remove (code value)

def apply (set : Set α) : SetCall α → Set α
  | .add value => insert value set
  | .remove value => set \ {value}

/-- The set that a history leaves behind, from the empty one. -/
def outcome (calls : List (SetCall α)) : Set α :=
  calls.foldl apply ∅

/-- The last call about a selected element exists and is an addition. -/
def LastAdds (selected : α → Prop) (calls : List (SetCall α)) : Prop :=
  AtLast (fun call => selected call.arg) (fun _ call => call.Adds) calls

theorem lastAdds_concat_of_selected {selected : α → Prop}
    {calls : List (SetCall α)} {call : SetCall α}
    (hcall : selected call.arg) :
    LastAdds selected (calls ++ [call]) ↔ call.Adds :=
  @atLast_concat_of_selected (SetCall α) (fun call => selected call.arg)
    (fun _ call => call.Adds) calls call hcall

theorem lastAdds_concat_of_not {selected : α → Prop}
    {calls : List (SetCall α)} {call : SetCall α}
    (hcall : ¬ selected call.arg) :
    LastAdds selected (calls ++ [call]) ↔ LastAdds selected calls :=
  @atLast_concat_of_not (SetCall α) (fun call => selected call.arg)
    (fun _ call => call.Adds) calls call hcall

@[simp] theorem arg_map (code : α → γ) (call : SetCall α) :
    (call.map code).arg = code call.arg := by
  cases call <;> rfl

@[simp] theorem adds_map (code : α → γ) (call : SetCall α) :
    (call.map code).Adds ↔ call.Adds := by
  cases call <;> rfl

theorem mem_apply {set : Set α} {call : SetCall α} {value : α} :
    value ∈ call.apply set ↔
      call.arg = value ∧ call.Adds ∨ call.arg ≠ value ∧ value ∈ set := by
  cases call with
  | add added =>
      by_cases hvalue : added = value
      · simp [apply, arg, Adds, hvalue]
      · simp [apply, arg, Adds, hvalue, Ne.symm hvalue]
  | remove removed =>
      simp only [apply, Set.mem_sdiff, Set.mem_singleton_iff, arg, Adds,
        and_false, false_or]
      rw [and_comm, eq_comm]

/-! ### What the outcome holds -/

theorem outcome_concat (calls : List (SetCall α)) (call : SetCall α) :
    outcome (calls ++ [call]) = call.apply (outcome calls) := by
  rw [outcome, List.foldl_append]
  rfl

theorem mem_outcome_map {code : α → γ} {value : γ}
    {calls : List (SetCall α)} :
    value ∈ outcome (calls.map (map code)) ↔
      LastAdds (fun arg => code arg = value) calls := by
  induction calls using List.reverseRecOn with
  | nil => simp [outcome, LastAdds]
  | append_singleton calls call ih =>
      rw [List.map_append, List.map_singleton, outcome_concat, mem_apply, ih,
        arg_map, adds_map]
      by_cases hcode : code call.arg = value
      · rw [lastAdds_concat_of_selected hcode]
        simp [hcode]
      · rw [lastAdds_concat_of_not hcode]
        simp [hcode]

/-! ### Elements kept as codes -/

section Codes

variable {code : α → γ} {value : α} {calls : List (SetCall α)}

/-- The last call with the code of an element is about another element, and
does not leave things as the calls about the element itself had left
them. -/
def Overruled (code : α → γ) (value : α) (calls : List (SetCall α)) : Prop :=
  AtLast (fun call => code call.arg = code value)
    (fun before call => call.arg ≠ value ∧
      ¬ (call.Adds ↔ LastAdds (fun arg => arg = value) before)) calls

theorem lastAdds_code_iff :
    (LastAdds (fun arg => code arg = code value) calls ↔
        LastAdds (fun arg => arg = value) calls) ↔
      ¬ Overruled code value calls := by
  induction calls using List.reverseRecOn with
  | nil => simp [LastAdds, Overruled]
  | append_singleton calls call ih =>
      by_cases hcode : code call.arg = code value
      · have hoverruled : Overruled code value (calls ++ [call]) ↔
            call.arg ≠ value ∧
              ¬ (call.Adds ↔ LastAdds (fun arg => arg = value) calls) :=
          @atLast_concat_of_selected (SetCall α)
            (fun call => code call.arg = code value) _ calls call hcode
        rw [hoverruled, lastAdds_concat_of_selected hcode]
        by_cases hvalue : call.arg = value
        · rw [lastAdds_concat_of_selected hvalue]
          simp [hvalue]
        · rw [lastAdds_concat_of_not hvalue]
          simp [hvalue]
      · have hvalue : call.arg ≠ value := fun heq =>
          hcode (congrArg code heq)
        have hoverruled : Overruled code value (calls ++ [call]) ↔
            Overruled code value calls :=
          @atLast_concat_of_not (SetCall α)
            (fun call => code call.arg = code value) _ calls call hcode
        rw [hoverruled, lastAdds_concat_of_not hcode,
          lastAdds_concat_of_not hvalue]
        exact ih

end Codes

end SetCall

end MuduoChat
