import Mathlib.Data.Set.Insert

/-!
# Caches that hear of changes later

A store holds a set of keys and a cache holds a copy of it.  A change is
written to the store first and applied to the cache some time later; in
between it is under way.  An owner enters by fetching the keys that touch it
and having them applied to the cache later, too.

The cache is coherent as long as it differs from the store only by changes
that are under way.  The lemmas say which operations keep it coherent, and
under which conditions.
-/

namespace MuduoChat

structure CacheView (Key Owner : Type) where
  stored : Set Key
  cached : Set Key
  /-- Additions the cache has not heard of, perhaps still being written. -/
  adding : Set Key
  /-- Those of them that are written. -/
  added : Set Key
  /-- Written removals the cache has not heard of. -/
  removing : Set Key
  /-- What was fetched for an owner and is not applied yet. -/
  fetched : Set (Owner × Set Key)
  /-- The owners that have entered. -/
  entered : Set Owner

namespace CacheView

variable {Key Owner : Type} {touches : Owner → Key → Prop}
  {view next : CacheView Key Owner} {key : Key}

structure Coherent (touches : Owner → Key → Prop)
    (view : CacheView Key Owner) : Prop where
  sound : ∀ key ∈ view.cached, key ∈ view.stored ∨ key ∈ view.removing
  complete : ∀ owner ∈ view.entered, ∀ key ∈ view.stored,
    touches owner key → key ∈ view.cached ∨ key ∈ view.adding
  fetched_sound : ∀ fetch ∈ view.fetched, ∀ key ∈ fetch.2,
    key ∈ view.stored
  fetched_complete : ∀ fetch ∈ view.fetched, ∀ key ∈ view.stored,
    touches fetch.1 key →
      key ∈ fetch.2 ∨ key ∈ view.cached ∨ key ∈ view.adding
  added_stored : ∀ key ∈ view.added, key ∈ view.stored
  removed : ∀ key ∈ view.removing, key ∉ view.stored

/-- When nothing is under way, the cache has exactly the keys of the owners
that have entered. -/
theorem Coherent.agrees (hview : Coherent touches view)
    (hadding : view.adding = ∅) (hremoving : view.removing = ∅)
    {owner : Owner} (howner : owner ∈ view.entered)
    (htouches : touches owner key) :
    key ∈ view.cached ↔ key ∈ view.stored := by
  constructor
  · intro hcached
    rcases hview.sound key hcached with hstored | hgone
    · exact hstored
    · rw [hremoving] at hgone
      exact hgone.elim
  · intro hstored
    rcases hview.complete owner howner key hstored htouches with
      hcached | hcoming
    · exact hcached
    · rw [hadding] at hcoming
      exact hcoming.elim

/-- Steps that leave store and cache alone. -/
theorem Coherent.keep (hview : Coherent touches view)
    (hstored : next.stored = view.stored)
    (hcached : next.cached = view.cached)
    (hadding : view.adding ⊆ next.adding)
    (hadded : next.added ⊆ view.added)
    (hremoving : next.removing = view.removing)
    (hfetched : next.fetched ⊆ view.fetched)
    (hentered : next.entered ⊆ view.entered) : Coherent touches next := by
  constructor
  · intro key hkey
    rw [hstored, hremoving]
    exact hview.sound key (hcached ▸ hkey)
  · intro owner howner key hkey htouches
    rw [hcached]
    rw [hstored] at hkey
    exact (hview.complete owner (hentered howner) key hkey htouches).imp_right
      fun hcoming => hadding hcoming
  · intro fetch hfetch key hkey
    rw [hstored]
    exact hview.fetched_sound fetch (hfetched hfetch) key hkey
  · intro fetch hfetch key hkey htouches
    rw [hcached]
    rw [hstored] at hkey
    rcases hview.fetched_complete fetch (hfetched hfetch) key hkey
      htouches with hin | hcached | hcoming
    · exact .inl hin
    · exact .inr (.inl hcached)
    · exact .inr (.inr (hadding hcoming))
  · intro key hkey
    rw [hstored]
    exact hview.added_stored key (hadded hkey)
  · intro key hkey
    rw [hstored]
    exact hview.removed key (hremoving ▸ hkey)

/-- An owner's keys are fetched. -/
theorem Coherent.fetch (hview : Coherent touches view)
    {fetch : Owner × Set Key}
    (hfetch : ∀ key, key ∈ fetch.2 ↔
      key ∈ view.stored ∧ touches fetch.1 key)
    (hnext : next = { view with fetched := insert fetch view.fetched }) :
    Coherent touches next := by
  subst hnext
  refine ⟨hview.sound, hview.complete, ?_, ?_, hview.added_stored,
    hview.removed⟩
  · intro other hother key hkey
    rcases hother with rfl | hold
    · exact ((hfetch key).mp hkey).1
    · exact hview.fetched_sound other hold key hkey
  · intro other hother key hkey htouches
    rcases hother with rfl | hold
    · exact .inl ((hfetch key).mpr ⟨hkey, htouches⟩)
    · exact hview.fetched_complete other hold key hkey htouches

/-- An addition is written, or part of it, while no removal of the same key
is under way. -/
theorem Coherent.store (hview : Coherent touches view)
    (hkeeps : view.stored ⊆ next.stored)
    (hwrites : next.stored ⊆ insert key view.stored)
    (hfree : key ∉ view.removing)
    (hadding : next.adding = insert key view.adding)
    (hadded : ∀ other ∈ next.added,
      other ∈ view.added ∨ other ∈ next.stored)
    (hcached : next.cached = view.cached)
    (hremoving : next.removing = view.removing)
    (hfetched : next.fetched = view.fetched)
    (hentered : next.entered = view.entered) : Coherent touches next := by
  constructor
  · intro other hother
    rw [hremoving]
    rw [hcached] at hother
    exact (hview.sound other hother).imp_left fun hstored => hkeeps hstored
  · intro owner howner other hother htouches
    rw [hcached, hadding]
    rw [hentered] at howner
    rcases hwrites hother with rfl | hold
    · exact .inr (.inl rfl)
    · exact (hview.complete owner howner other hold htouches).imp_right .inr
  · intro fetch hfetch other hother
    rw [hfetched] at hfetch
    exact hkeeps (hview.fetched_sound fetch hfetch other hother)
  · intro fetch hfetch other hother htouches
    rw [hcached, hadding]
    rw [hfetched] at hfetch
    rcases hwrites hother with rfl | hold
    · exact .inr (.inr (.inl rfl))
    · rcases hview.fetched_complete fetch hfetch other hold htouches with
        hin | hcached | hcoming
      · exact .inl hin
      · exact .inr (.inl hcached)
      · exact .inr (.inr (.inr hcoming))
  · intro other hother
    rcases hadded other hother with hold | hstored
    · exact hkeeps (hview.added_stored other hold)
    · exact hstored
  · intro other hother hstored
    rw [hremoving] at hother
    rcases hwrites hstored with rfl | hold
    · exact hfree hother
    · exact hview.removed other hother hold

/-- A removal is written while no addition of the key is under way and
nothing that was fetched has it. -/
theorem Coherent.remove (hview : Coherent touches view)
    (hadding : key ∉ view.adding) (hadded : view.added ⊆ view.adding)
    (hfetched : ∀ fetch ∈ view.fetched, key ∉ fetch.2)
    (hnext : next = { view with
      stored := view.stored \ {key}
      removing := insert key view.removing }) :
    Coherent touches next := by
  subst hnext
  constructor
  · intro other hother
    by_cases hsame : other = key
    · exact .inr (.inl hsame)
    · rcases hview.sound other hother with hstored | hgone
      · exact .inl ⟨hstored, hsame⟩
      · exact .inr (.inr hgone)
  · intro owner howner other hother htouches
    exact hview.complete owner howner other hother.1 htouches
  · intro fetch hfetch other hother
    refine ⟨hview.fetched_sound fetch hfetch other hother, ?_⟩
    rintro rfl
    exact hfetched fetch hfetch hother
  · intro fetch hfetch other hother htouches
    exact hview.fetched_complete fetch hfetch other hother.1 htouches
  · intro other hother
    refine ⟨hview.added_stored other hother, ?_⟩
    rintro rfl
    exact hadding (hadded hother)
  · intro other hother hstored
    rcases hother with rfl | hold
    · exact hstored.2 rfl
    · exact hview.removed other hold hstored.1

/-- The cache hears of an addition. -/
theorem Coherent.applyAdd (hview : Coherent touches view)
    (hkey : key ∈ view.added)
    (hcached : next.cached = insert key view.cached)
    (hadding : view.adding ⊆ insert key next.adding)
    (hadded : next.added ⊆ view.added)
    (hstored : next.stored = view.stored)
    (hremoving : next.removing = view.removing)
    (hfetched : next.fetched ⊆ view.fetched)
    (hentered : next.entered ⊆ view.entered) : Coherent touches next := by
  have hknown {other : Key}
      (hother : other ∈ view.cached ∨ other ∈ view.adding) :
      other ∈ next.cached ∨ other ∈ next.adding := by
    rw [hcached]
    rcases hother with hold | hcoming
    · exact .inl (.inr hold)
    · rcases hadding hcoming with rfl | hstill
      · exact .inl (.inl rfl)
      · exact .inr hstill
  constructor
  · intro other hother
    rw [hstored, hremoving]
    rw [hcached] at hother
    rcases hother with rfl | hold
    · exact .inl (hview.added_stored other hkey)
    · exact hview.sound other hold
  · intro owner howner other hother htouches
    rw [hstored] at hother
    exact hknown (hview.complete owner (hentered howner) other hother
      htouches)
  · intro fetch hfetch other hother
    rw [hstored]
    exact hview.fetched_sound fetch (hfetched hfetch) other hother
  · intro fetch hfetch other hother htouches
    rw [hstored] at hother
    exact (hview.fetched_complete fetch (hfetched hfetch) other hother
      htouches).imp_right hknown
  · intro other hother
    rw [hstored]
    exact hview.added_stored other (hadded hother)
  · intro other hother
    rw [hstored]
    exact hview.removed other (hremoving ▸ hother)

/-- The cache hears of a removal. -/
theorem Coherent.applyRemove (hview : Coherent touches view)
    (hkey : key ∈ view.removing)
    (hcached : next.cached = view.cached \ {key})
    (hremoving : view.removing ⊆ insert key next.removing)
    (hremoved : next.removing ⊆ view.removing)
    (hadding : view.adding ⊆ next.adding)
    (hadded : next.added ⊆ view.added)
    (hstored : next.stored = view.stored)
    (hfetched : next.fetched ⊆ view.fetched)
    (hentered : next.entered ⊆ view.entered) : Coherent touches next := by
  have hne {other : Key} (hother : other ∈ view.stored) : other ≠ key := by
    rintro rfl
    exact hview.removed other hkey hother
  constructor
  · intro other hother
    rw [hcached] at hother
    rw [hstored]
    rcases hview.sound other hother.1 with hold | hgone
    · exact .inl hold
    · exact .inr ((hremoving hgone).resolve_left hother.2)
  · intro owner howner other hother htouches
    rw [hstored] at hother
    rw [hcached]
    rcases hview.complete owner (hentered howner) other hother htouches with
      hold | hcoming
    · exact .inl ⟨hold, hne hother⟩
    · exact .inr (hadding hcoming)
  · intro fetch hfetch other hother
    rw [hstored]
    exact hview.fetched_sound fetch (hfetched hfetch) other hother
  · intro fetch hfetch other hother htouches
    rw [hstored] at hother
    rw [hcached]
    rcases hview.fetched_complete fetch (hfetched hfetch) other hother
      htouches with hin | hold | hcoming
    · exact .inl hin
    · exact .inr (.inl ⟨hold, hne hother⟩)
    · exact .inr (.inr (hadding hcoming))
  · intro other hother
    rw [hstored]
    exact hview.added_stored other (hadded hother)
  · intro other hother
    rw [hstored]
    exact hview.removed other (hremoved hother)

/-- What was fetched for an owner is applied, and the owner enters. -/
theorem Coherent.enter (hview : Coherent touches view)
    {fetch : Owner × Set Key} (hfetch : fetch ∈ view.fetched)
    (hcached : next.cached = view.cached ∪ fetch.2)
    (hentered : next.entered ⊆ insert fetch.1 view.entered)
    (hadding : view.adding ⊆ next.adding)
    (hadded : next.added ⊆ view.added)
    (hstored : next.stored = view.stored)
    (hremoving : next.removing = view.removing)
    (hfetched : next.fetched ⊆ view.fetched) : Coherent touches next := by
  have hknown {other : Key}
      (hother : other ∈ view.cached ∨ other ∈ view.adding) :
      other ∈ next.cached ∨ other ∈ next.adding := by
    rw [hcached]
    exact hother.imp .inl fun hcoming => hadding hcoming
  constructor
  · intro key hkey
    rw [hstored, hremoving]
    rw [hcached] at hkey
    rcases hkey with hold | hnew
    · exact hview.sound key hold
    · exact .inl (hview.fetched_sound fetch hfetch key hnew)
  · intro owner howner key hkey htouches
    rw [hstored] at hkey
    rcases hentered howner with rfl | hold
    · rcases hview.fetched_complete fetch hfetch key hkey htouches with
        hin | hrest
      · rw [hcached]
        exact .inl (.inr hin)
      · exact hknown hrest
    · exact hknown (hview.complete owner hold key hkey htouches)
  · intro other hother key hkey
    rw [hstored]
    exact hview.fetched_sound other (hfetched hother) key hkey
  · intro other hother key hkey htouches
    rw [hstored] at hkey
    exact (hview.fetched_complete other (hfetched hother) key hkey
      htouches).imp_right hknown
  · intro key hkey
    rw [hstored]
    exact hview.added_stored key (hadded hkey)
  · intro key hkey
    rw [hstored]
    exact hview.removed key (hremoving ▸ hkey)

end CacheView

end MuduoChat
