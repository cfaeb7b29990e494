import MuduoChat.LabelledRuns
import Mathlib.Logic.Hydra
import Mathlib.Order.WellFounded

/-!
# Runs that come to rest

Some actions of a system are its own work, the others come from outside.  The
work that is still to be done is a collection of items, and every step of work
replaces one item by finitely many smaller ones.  When smaller than smaller
cannot go on for ever, then neither can the work, whatever the order in which
the items are taken up: each run of work ends in a state from which no step of
work leads on.
-/

namespace MuduoChat.Runs

variable {State Action Item : Type*}

/-- One step of work. -/
def Leads (step : State → Action → Option State) (work : Action → Prop)
    (state next : State) : Prop :=
  ∃ action, work action ∧ step state action = some next

variable {step : State → Action → Option State} {work : Action → Prop}
  {state : State}

/-- The work comes to an end if each step of it replaces an item by smaller
ones. -/
theorem acc_of_cutExpand {smaller : Item → Item → Prop}
    (hsmaller : WellFounded smaller) {pending : State → Multiset Item → Prop}
    (hstep : ∀ state next items, pending state items →
      Leads step work state next →
        ∃ rest, pending next rest ∧ Relation.CutExpand smaller rest items)
    {items : Multiset Item} (hpending : pending state items) :
    Acc (fun next state => Leads step work state next) state := by
  have : Std.Irrefl smaller := hsmaller.irrefl
  induction items using hsmaller.cutExpand.induction generalizing state with
  | _ items ih =>
      constructor
      intro next hleads
      obtain ⟨rest, hrest, hcut⟩ := hstep state next items hpending hleads
      exact ih rest hcut hrest

theorem not_leads_forever
    (hacc : Acc (fun next state => Leads step work state next) state) :
    ¬ ∃ states : ℕ → State, states 0 = state ∧
      ∀ count, Leads step work (states count) (states (count + 1)) := by
  induction hacc with
  | intro state _ ih =>
      rintro ⟨states, rfl, hleads⟩
      exact ih (states 1) (hleads 0)
        ⟨fun count => states (count + 1), rfl, fun count =>
          hleads (count + 1)⟩

/-- A run of work that nothing can be added to. -/
theorem exists_rest_of_acc
    (hacc : Acc (fun next state => Leads step work state next) state) :
    ∃ actions final, (∀ action ∈ actions, work action) ∧
      runFrom step state actions = some final ∧
        ∀ next, ¬ Leads step work final next := by
  induction hacc with
  | intro state _ ih =>
      by_cases hrest : ∃ next, Leads step work state next
      · obtain ⟨next, hleads⟩ := hrest
        obtain ⟨actions, final, hactions, hrun, hfinal⟩ := ih next hleads
        obtain ⟨action, hwork, hstep⟩ := hleads
        refine ⟨action :: actions, final, ?_, ?_, hfinal⟩
        · intro other hother
          rcases List.mem_cons.mp hother with rfl | hmem
          · exact hwork
          · exact hactions other hmem
        · rw [runFrom_cons, hstep]
          exact hrun
      · refine ⟨[], state, by simp, rfl, ?_⟩
        intro next hleads
        exact hrest ⟨next, hleads⟩

end MuduoChat.Runs
