/-
# Controllers driven by events

A controller that works from a cache.  Events change the cache and are handled some time after: a
filter decides which of them put a request in the queue.  One worker takes requests, reads the
cache, maybe more than once, and acts on what it read.  Events go on arriving while it works, also
between two of its reads, and an action that fails is tried again.

What the controller maintains has slots, each fed by some of the requests: one slot per object, or
one slot for all of them.  `Controller.digest` says what a slot should show for a cache.  If the
filter lets through every event that changes a digest (`Controller.Sound`), then a slot without
work left shows the digest of the cache as it is now (`Controller.Run.shows`): no event that
matters is lost, although most are not looked at.

`ObjectCache` is the cache of a kind of objects, each name once.
-/
import Mathlib.Data.List.Nodup
import Mathlib.Data.List.Perm.Basic
import Mathlib.Logic.Relation
import Mathlib.Tactic.Common

/-! ## Objects in a cache -/

/-- The cached objects of a kind, at most one of each name. -/
structure ObjectCache {α κ : Type} (name : α → κ) where
  items : List α
  nodup : (items.map name).Nodup

namespace ObjectCache

variable {α κ : Type} {name : α → κ} [DecidableEq κ]

/-- Nothing is cached. -/
def empty : ObjectCache name := ⟨[], List.nodup_nil⟩

/-- The object of a name. -/
def get (l : ObjectCache name) (k : κ) : Option α := l.items.find? fun x => name x = k

/-- Without the object of a name. -/
def drop (l : ObjectCache name) (k : κ) : ObjectCache name where
  items := l.items.filter fun x => name x ≠ k
  nodup := l.nodup.sublist (List.filter_sublist.map name)

/-- With this object, in the place of one of the same name. -/
def put (l : ObjectCache name) (x : α) : ObjectCache name where
  items := x :: (l.drop (name x)).items
  nodup := by
    rw [List.map_cons]
    refine List.nodup_cons.mpr ⟨fun h => ?_, (l.drop (name x)).nodup⟩
    obtain ⟨y, hy, heq⟩ := List.mem_map.mp h
    exact of_decide_eq_true (List.mem_filter.mp hy).2 heq

theorem get_eq_some_iff {l : ObjectCache name} {k : κ} {x : α} :
    l.get k = some x ↔ x ∈ l.items ∧ name x = k := by
  constructor
  · intro h
    rw [get] at h
    exact ⟨List.mem_of_find?_eq_some h, by simpa using List.find?_some h⟩
  · rintro ⟨hx, rfl⟩
    obtain ⟨items, hnodup⟩ := l
    show items.find? _ = _
    induction items with
    | nil => cases hx
    | cons y items ih =>
      obtain ⟨hy, hnodup⟩ := List.nodup_cons.mp hnodup
      rcases List.mem_cons.mp hx with rfl | hx
      · simp
      · have hne : name y ≠ name x := fun e => hy (e ▸ List.mem_map_of_mem hx)
        rw [List.find?_cons_of_neg (by simpa using hne)]
        exact ih hnodup hx

theorem get_drop (l : ObjectCache name) (k k' : κ) :
    (l.drop k).get k' = if k' = k then none else l.get k' := by
  by_cases h : k' = k
  · rw [if_pos h]
    refine List.find?_eq_none.mpr fun x hx => ?_
    have hne := of_decide_eq_true (List.mem_filter.mp hx).2
    simpa [h] using hne
  · rw [if_neg h]
    refine Option.ext fun x => ?_
    rw [get_eq_some_iff, get_eq_some_iff, drop, List.mem_filter, decide_eq_true_iff]
    constructor
    · rintro ⟨⟨hx, -⟩, rfl⟩
      exact ⟨hx, rfl⟩
    · rintro ⟨hx, rfl⟩
      exact ⟨⟨hx, h⟩, rfl⟩

theorem get_put (l : ObjectCache name) (x : α) (k : κ) :
    (l.put x).get k = if k = name x then some x else l.get k := by
  show (x :: (l.drop (name x)).items).find? _ = _
  by_cases h : k = name x
  · rw [if_pos h, List.find?_cons_of_pos (by simp [h])]
  · rw [if_neg h, List.find?_cons_of_neg (by simpa using fun e => h e.symm)]
    have hdrop := l.get_drop (name x) k
    rwa [if_neg h] at hdrop

/-- A cached object and the others. -/
theorem perm_of_get {l : ObjectCache name} {x : α} (h : l.get (name x) = some x) :
    l.items.Perm (x :: (l.drop (name x)).items) := by
  obtain ⟨hx, -⟩ := get_eq_some_iff.mp h
  refine (List.perm_ext_iff_of_nodup (List.Nodup.of_map name l.nodup)
    (List.Nodup.of_map name (l.put x).nodup)).mpr fun y => ?_
  rw [put, List.mem_cons, drop, List.mem_filter, decide_eq_true_iff]
  constructor
  · intro hy
    by_cases hname : name y = name x
    · exact Or.inl (List.inj_on_of_nodup_map l.nodup hy hx hname)
    · exact Or.inr ⟨hy, hname⟩
  · rintro (rfl | ⟨hy, -⟩)
    · exact hx
    · exact hy

end ObjectCache

/-! ## Events and filters -/

/-- What a watch reports of an object. -/
inductive ObjectEvent (α : Type) : Type where
  | create (object : α) : ObjectEvent α
  | update (objectOld objectNew : α) : ObjectEvent α
  | delete (object : α) : ObjectEvent α

/-- Which events of an object are looked at; all, unless said otherwise. -/
structure EventFilter (α : Type) where
  create : α → Bool := fun _ => true
  update : α → α → Bool := fun _ _ => true
  delete : α → Bool := fun _ => true

/-- The event is looked at. -/
def EventFilter.passes {α : Type} (filter : EventFilter α) : ObjectEvent α → Bool
  | .create object => filter.create object
  | .update objectOld objectNew => filter.update objectOld objectNew
  | .delete object => filter.delete object

namespace ObjectEvent

variable {α κ : Type} {name : α → κ} [DecidableEq κ]

/-- The name of the object. -/
def key (name : α → κ) : ObjectEvent α → κ
  | .create object => name object
  | .update _ objectNew => name objectNew
  | .delete object => name object

/-- The cache after the event. -/
def apply (l : ObjectCache name) : ObjectEvent α → ObjectCache name
  | .create object => l.put object
  | .update _ objectNew => l.put objectNew
  | .delete object => l.drop (name object)

/-- The event says what happens to the cache. -/
def Reports (l : ObjectCache name) : ObjectEvent α → Prop
  | .create object => l.get (name object) = none
  | .update objectOld objectNew =>
    l.get (name objectOld) = some objectOld ∧ name objectNew = name objectOld
  | .delete object => ∃ last, l.get (name object) = some last

/-- An update that keeps a view of the object keeps the views of all of them. -/
theorem map_update_perm {β : Type} {l : ObjectCache name} {objectOld objectNew : α}
    (h : Reports l (.update objectOld objectNew)) {view : α → β}
    (hview : view objectNew = view objectOld) :
    ((apply l (.update objectOld objectNew)).items.map view).Perm (l.items.map view) := by
  obtain ⟨hget, hname⟩ := h
  show ((objectNew :: (l.drop (name objectNew)).items).map view).Perm _
  rw [hname, List.map_cons, hview, ← List.map_cons]
  exact ((ObjectCache.perm_of_get hget).map view).symm

theorem Reports.get_old {l : ObjectCache name} {objectOld objectNew : α}
    (h : Reports l (.update objectOld objectNew)) : l.get (name objectNew) = some objectOld := by
  obtain ⟨hget, hname⟩ := h
  rwa [hname]

theorem get_apply_update (l : ObjectCache name) (objectOld objectNew : α) :
    (apply l (.update objectOld objectNew)).get (name objectNew) = some objectNew :=
  (l.get_put objectNew _).trans (if_pos rfl)

theorem get_apply_of_ne (l : ObjectCache name) (e : ObjectEvent α) {k : κ} (h : k ≠ e.key name) :
    (e.apply l).get k = l.get k := by
  cases e with
  | create object => exact (l.get_put object k).trans (if_neg h)
  | update objectOld objectNew => exact (l.get_put objectNew k).trans (if_neg h)
  | delete object => exact (l.get_drop (name object) k).trans (if_neg h)

end ObjectEvent

/-! ## Controllers -/

/-- A controller over caches `σ`, events `ε`, requests `κ` and slots `ι`; `τ` is what it maintains
and `δ` what a slot shows.  An action works on the caches its reads saw, one for each read. -/
structure Controller (σ ε κ ι τ δ : Type) where
  /-- The cache after an event. -/
  change : σ → ε → σ
  /-- The requests an event puts in the queue, on the cache it is handled with. -/
  requests : σ → ε → List κ
  /-- The slot a request is for. -/
  slot : κ → ι
  /-- With these reads a request can be carried out. -/
  succeeds : κ → List σ → Bool
  /-- What is maintained after a request was carried out. -/
  act : τ → κ → List σ → τ
  /-- What a slot shows. -/
  shows : τ → ι → δ
  /-- What a slot should show. -/
  digest : σ → ι → δ

/-- A controller at work.  Events that have reached the cache are `pending` until they are handled;
the worker may have taken a request and read the cache for it. -/
structure ControllerState (σ ε κ τ : Type) where
  cache : σ
  pending : List ε
  queue : List κ
  work : Option (κ × List σ)
  own : τ

namespace Controller

variable {σ ε κ ι τ δ : Type}

/-- An event handled with this cache puts a request for the slot in the queue. -/
def Asks (c : Controller σ ε κ ι τ δ) (cache : σ) (e : ε) (i : ι) : Prop :=
  ∃ k ∈ c.requests cache e, c.slot k = i

/-- A request for the slot waits, or an event that will ask for one. -/
def Awaited (c : Controller σ ε κ ι τ δ) (s : ControllerState σ ε κ τ) (i : ι) : Prop :=
  (∃ k ∈ s.queue, c.slot k = i) ∨ ∃ e ∈ s.pending, c.Asks s.cache e i

/-- A slot is taken care of: it is awaited, or the worker is at it and what it has read so far still
holds, or it shows what it should. -/
def Covered (c : Controller σ ε κ ι τ δ) (s : ControllerState σ ε κ τ) (i : ι) : Prop :=
  c.Awaited s i ∨
    (∃ k seen, s.work = some (k, seen) ∧ c.slot k = i ∧
      ∀ cache ∈ seen, c.digest cache i = c.digest s.cache i) ∨
    (∀ k seen, s.work = some (k, seen) → c.slot k ≠ i) ∧
      c.shows s.own i = c.digest s.cache i

variable {c : Controller σ ε κ ι τ δ} {ok : σ → ε → Prop} {Inv : τ → Prop}
  {s s' : ControllerState σ ε κ τ} {i : ι}

theorem Awaited.mono (h : c.Awaited s i) (hcache : s'.cache = s.cache)
    (hpending : s'.pending = s.pending) (hqueue : ∀ k ∈ s.queue, c.slot k = i → k ∈ s'.queue) :
    c.Awaited s' i := by
  rcases h with ⟨k, hk, hslot⟩ | hasks
  · exact Or.inl ⟨k, hqueue k hk hslot, hslot⟩
  · refine Or.inr ?_
    rwa [hpending, hcache]

/-- A slot the worker is not at stays covered when only the worker and its slot move. -/
theorem Covered.of_other {k : κ} {seen : List σ} (hcovered : c.Covered s i)
    (hwork : s.work = some (k, seen)) (hslot : c.slot k ≠ i) (hcache : s'.cache = s.cache)
    (hpending : s'.pending = s.pending) (hqueue : ∀ k' ∈ s.queue, k' ∈ s'.queue)
    (hidle : ∀ k' seen', s'.work = some (k', seen') → c.slot k' ≠ i)
    (hshows : c.shows s'.own i = c.shows s.own i) : c.Covered s' i := by
  rcases hcovered with hawaited | ⟨k', seen', hwork', hslot', -⟩ | ⟨-, hshown⟩
  · exact Or.inl (hawaited.mono hcache hpending fun k' hk' _ => hqueue k' hk')
  · rw [hwork] at hwork'
    cases hwork'
    exact absurd hslot' hslot
  · refine Or.inr (Or.inr ⟨hidle, hshows.trans ?_⟩)
    rw [hshown, hcache]

/-- Every event that changes what a slot should show asks for it, and an event that came before it
still does unless the later one now does; an action whose reads agree on its slot makes that slot,
and no other, show what they say. -/
structure Sound (c : Controller σ ε κ ι τ δ) (ok : σ → ε → Prop) (Inv : τ → Prop) : Prop where
  notices : ∀ s e i, ok s e → c.digest (c.change s e) i ≠ c.digest s i →
    c.Asks (c.change s e) e i
  still_asks : ∀ s e later i, ok s later → c.Asks s e i →
    c.Asks (c.change s later) e i ∨ c.Asks (c.change s later) later i
  inv_act : ∀ t k seen, Inv t → c.succeeds k seen = true → Inv (c.act t k seen)
  shows_slot : ∀ t k seen shown, Inv t → c.succeeds k seen = true →
    (∀ s ∈ seen, c.digest s (c.slot k) = shown) → c.shows (c.act t k seen) (c.slot k) = shown
  shows_other : ∀ t k seen i, Inv t → c.succeeds k seen = true → i ≠ c.slot k →
    c.shows (c.act t k seen) i = c.shows t i

/-- An event that reaches the cache keeps the slots covered. -/
theorem Covered.event (hsound : c.Sound ok Inv) {e : ε} (hok : ok s.cache e)
    (hcovered : c.Covered s i) :
    c.Covered { s with cache := c.change s.cache e, pending := s.pending ++ [e] } i := by
  have hnew : e ∈ s.pending ++ [e] := List.mem_append_right _ (List.mem_singleton_self e)
  by_cases hsame : c.digest (c.change s.cache e) i = c.digest s.cache i
  · rcases hcovered with (hqueued | ⟨e', he', hasks⟩) | ⟨k, seen, hwork, hslot, hseen⟩ |
      ⟨hother, hshown⟩
    · exact Or.inl (Or.inl hqueued)
    · -- the earlier event is handled with the new cache
      rcases hsound.still_asks s.cache e' e i hok hasks with hasks | hasks
      · exact Or.inl (Or.inr ⟨e', List.mem_append_left _ he', hasks⟩)
      · exact Or.inl (Or.inr ⟨e, hnew, hasks⟩)
    · exact Or.inr (Or.inl ⟨k, seen, hwork, hslot,
        fun cache hcache => (hseen cache hcache).trans hsame.symm⟩)
    · exact Or.inr (Or.inr ⟨hother, hshown.trans hsame.symm⟩)
  · exact Or.inl (Or.inr ⟨e, hnew, hsound.notices s.cache e i hok hsame⟩)

/-- A handled event leaves its requests in the queue. -/
theorem Covered.handle {e : ε} {before after : List ε} (h : s.pending = before ++ e :: after)
    (hcovered : c.Covered s i) :
    c.Covered { s with pending := before ++ after, queue := s.queue ++ c.requests s.cache e }
      i := by
  rcases hcovered with (⟨k, hk, hslot⟩ | ⟨e', he', hasks⟩) | hrest
  · exact Or.inl (Or.inl ⟨k, List.mem_append_left _ hk, hslot⟩)
  · rw [h] at he'
    rcases List.mem_append.mp he' with he' | he'
    · exact Or.inl (Or.inr ⟨e', List.mem_append_left _ he', hasks⟩)
    · rcases List.mem_cons.mp he' with rfl | he'
      · obtain ⟨k, hk, hslot⟩ := hasks
        exact Or.inl (Or.inl ⟨k, List.mem_append_right _ hk, hslot⟩)
      · exact Or.inl (Or.inr ⟨e', List.mem_append_right _ he', hasks⟩)
  · exact Or.inr hrest

variable [DecidableEq κ]

/-- One step: an event reaches the cache or is handled, or the worker moves. -/
inductive Step (c : Controller σ ε κ ι τ δ) (ok : σ → ε → Prop) (Inv : τ → Prop) :
    ControllerState σ ε κ τ → ControllerState σ ε κ τ → Prop
  | event {s : ControllerState σ ε κ τ} {e : ε} (h : ok s.cache e) :
      Step c ok Inv s { s with cache := c.change s.cache e, pending := s.pending ++ [e] }
  /-- Events of one kind are handled in order, those of two kinds in any. -/
  | handle {s : ControllerState σ ε κ τ} {e : ε} {before after : List ε}
      (h : s.pending = before ++ e :: after) :
      Step c ok Inv s
        { s with pending := before ++ after, queue := s.queue ++ c.requests s.cache e }
  | take {s : ControllerState σ ε κ τ} {k : κ} (h : k ∈ s.queue) (hwork : s.work = none) :
      Step c ok Inv s
        { s with queue := s.queue.filter (fun k' => k' ≠ k), work := some (k, []) }
  | read {s : ControllerState σ ε κ τ} {k : κ} {seen : List σ}
      (hwork : s.work = some (k, seen)) :
      Step c ok Inv s { s with work := some (k, seen ++ [s.cache]) }
  | complete {s : ControllerState σ ε κ τ} {k : κ} {seen : List σ}
      (hwork : s.work = some (k, seen)) (hdone : c.succeeds k seen = true) :
      Step c ok Inv s { s with own := c.act s.own k seen, work := none }
  /-- A failed action may have done anything to its slot; its request goes back. -/
  | fail {s : ControllerState σ ε κ τ} {k : κ} {seen : List σ} {own : τ}
      (hwork : s.work = some (k, seen)) (hown : Inv own)
      (hother : ∀ i, i ≠ c.slot k → c.shows own i = c.shows s.own i) :
      Step c ok Inv s { s with own := own, queue := s.queue ++ [k], work := none }

/-- Any number of steps. -/
abbrev Run (c : Controller σ ε κ ι τ δ) (ok : σ → ε → Prop) (Inv : τ → Prop) :
    ControllerState σ ε κ τ → ControllerState σ ε κ τ → Prop :=
  Relation.ReflTransGen (Step c ok Inv)

theorem Step.inv (hsound : c.Sound ok Inv) (h : Step c ok Inv s s') (hinv : Inv s.own) :
    Inv s'.own := by
  cases h with
  | event _ => exact hinv
  | handle _ => exact hinv
  | take _ _ => exact hinv
  | read _ => exact hinv
  | complete _ hdone => exact hsound.inv_act _ _ _ hinv hdone
  | fail _ hown _ => exact hown

theorem Step.covered (hsound : c.Sound ok Inv) (h : Step c ok Inv s s') (hinv : Inv s.own)
    (hcovered : c.Covered s i) : c.Covered s' i := by
  -- an idle worker is at no slot
  have hidle : ∀ (k : κ) (seen : List σ), (none : Option (κ × List σ)) = some (k, seen) →
      c.slot k ≠ i := by
    intro k seen h
    cases h
  cases h with
  | event hok => exact hcovered.event hsound hok
  | handle hpending => exact hcovered.handle hpending
  | take hk hwork =>
    rename_i k
    by_cases hslot : c.slot k = i
    · exact Or.inr (Or.inl ⟨k, [], rfl, hslot, fun cache hcache => by cases hcache⟩)
    · rcases hcovered with hawaited | ⟨k', seen, hwork', -⟩ | ⟨-, hshown⟩
      · refine Or.inl (hawaited.mono rfl rfl fun k' hk' hslot' => ?_)
        exact List.mem_filter.mpr ⟨hk', decide_eq_true fun e => hslot (e ▸ hslot')⟩
      · rw [hwork] at hwork'
        cases hwork'
      · refine Or.inr (Or.inr ⟨fun k' seen h => ?_, hshown⟩)
        cases h
        exact hslot
  | read hwork =>
    rename_i k seen
    by_cases hslot : c.slot k = i
    · rcases hcovered with hawaited | ⟨k', seen', hwork', -, hseen⟩ | ⟨hother, -⟩
      · exact Or.inl hawaited
      · rw [hwork] at hwork'
        cases hwork'
        refine Or.inr (Or.inl ⟨k, _, rfl, hslot, fun cache hcache => ?_⟩)
        rcases List.mem_append.mp hcache with hcache | hcache
        · exact hseen cache hcache
        · rw [List.mem_singleton.mp hcache]
      · exact absurd hslot (hother k _ hwork)
    · refine hcovered.of_other hwork hslot rfl rfl (fun _ h => h) (fun k' seen' h => ?_) rfl
      cases h
      exact hslot
  | complete hwork hdone =>
    rename_i k seen
    by_cases hslot : c.slot k = i
    · rcases hcovered with hawaited | ⟨k', seen', hwork', -, hseen⟩ | ⟨hother, -⟩
      · exact Or.inl hawaited
      · rw [hwork] at hwork'
        cases hwork'
        subst hslot
        exact Or.inr (Or.inr ⟨hidle, hsound.shows_slot s.own k seen _ hinv hdone hseen⟩)
      · exact absurd hslot (hother k _ hwork)
    · exact hcovered.of_other hwork hslot rfl rfl (fun _ h => h) hidle
        (hsound.shows_other s.own k seen i hinv hdone fun e => hslot e.symm)
  | fail hwork hown hother =>
    rename_i k seen own
    by_cases hslot : c.slot k = i
    · exact Or.inl (Or.inl ⟨k, List.mem_append_right _ (List.mem_singleton_self k), hslot⟩)
    · exact hcovered.of_other hwork hslot rfl rfl (fun _ h => List.mem_append_left _ h) hidle
        (hother i fun e => hslot e.symm)

theorem Run.covered (hsound : c.Sound ok Inv) (h : Run c ok Inv s s') (hinv : Inv s.own)
    (hcovered : ∀ i, c.Covered s i) : Inv s'.own ∧ ∀ i, c.Covered s' i := by
  induction h with
  | refl => exact ⟨hinv, hcovered⟩
  | tail _ hstep ih =>
    exact ⟨hstep.inv hsound ih.1, fun i => hstep.covered hsound ih.1 (ih.2 i)⟩

/-- **No event is lost.**  A slot that is not awaited and not being worked on shows what it should
for the cache as it is. -/
theorem Run.shows (hsound : c.Sound ok Inv) (h : Run c ok Inv s s') (hinv : Inv s.own)
    (hcovered : ∀ i, c.Covered s i) (hawaited : ¬ c.Awaited s' i)
    (hwork : ∀ k seen, s'.work = some (k, seen) → c.slot k ≠ i) :
    c.shows s'.own i = c.digest s'.cache i := by
  rcases (h.covered hsound hinv hcovered).2 i with h | ⟨k, seen, hk, hslot, -⟩ | ⟨-, hshown⟩
  · exact absurd h hawaited
  · exact absurd hslot (hwork k seen hk)
  · exact hshown

end Controller

/-! ## Reporters -/

/-- A controller that on every request lists all objects and reports on them. -/
structure Reporter (α τ δ : Type) where
  filter : EventFilter α
  /-- What is maintained after a report on the listed objects. -/
  report : τ → List α → τ
  shows : τ → δ
  /-- What should be shown of some objects. -/
  statistic : List α → δ

namespace Reporter

variable {α κ τ δ β : Type} {name : α → κ} [DecidableEq κ] {r : Reporter α τ δ}

/-- The controller; all requests are for the one slot it has. -/
def controller (r : Reporter α τ δ) (name : α → κ) :
    Controller (ObjectCache name) (ObjectEvent α) κ Unit τ δ where
  change l e := e.apply l
  requests _ e := if r.filter.passes e then [e.key name] else []
  slot _ := ()
  succeeds _ seen := !seen.isEmpty
  act t _ seen :=
    match seen with
    | [] => t
    | l :: _ => r.report t l.items
  shows t _ := r.shows t
  digest l _ := r.statistic l.items

/-- The reports are right, and the filter lets through every event but updates that keep the view
of the object the statistic goes by. -/
structure Sound (r : Reporter α τ δ) (view : α → β) (Allowed : α → α → Prop) (Inv : τ → Prop) :
    Prop where
  create : ∀ object, r.filter.create object = true
  delete : ∀ object, r.filter.delete object = true
  update : ∀ objectOld objectNew, Allowed objectOld objectNew →
    r.filter.update objectOld objectNew = false → view objectNew = view objectOld
  statistic : ∀ objects objects', (objects.map view).Perm (objects'.map view) →
    r.statistic objects = r.statistic objects'
  inv : ∀ t objects, Inv t → Inv (r.report t objects)
  shows : ∀ t objects, Inv t → r.shows (r.report t objects) = r.statistic objects

/-- The event says what happens to the cache, and an update is an allowed one. -/
def Happens (Allowed : α → α → Prop) (l : ObjectCache name) (e : ObjectEvent α) : Prop :=
  e.Reports l ∧ ∀ objectOld objectNew, e = .update objectOld objectNew →
    Allowed objectOld objectNew

theorem asks_iff {l : ObjectCache name} {e : ObjectEvent α} {i : Unit} :
    (r.controller name).Asks l e i ↔ r.filter.passes e = true := by
  show (∃ k ∈ (if r.filter.passes e then [e.key name] else []), () = i) ↔ _
  by_cases h : r.filter.passes e = true
  · simp [h]
  · simp [h]

theorem Sound.controller {view : α → β} {Allowed : α → α → Prop} {Inv : τ → Prop}
    (h : r.Sound view Allowed Inv) :
    (r.controller name).Sound (Happens Allowed) Inv where
  notices l e i hok hne := by
    refine asks_iff.mpr ?_
    obtain ⟨hreports, hallowed⟩ := hok
    cases e with
    | create object => exact h.create object
    | delete object => exact h.delete object
    | update objectOld objectNew =>
      by_contra hpass
      have hview := h.update objectOld objectNew (hallowed _ _ rfl) (Bool.not_eq_true _ ▸ hpass)
      exact hne (h.statistic _ _ (ObjectEvent.map_update_perm hreports hview))
  still_asks l e later i _ hasks := Or.inl (asks_iff.mpr (asks_iff.mp hasks))
  inv_act t k seen hinv hdone := by
    cases seen with
    | nil => cases hdone
    | cons l rest => exact h.inv t l.items hinv
  shows_slot t k seen shown hinv hdone hagree := by
    cases seen with
    | nil => cases hdone
    | cons l rest => exact (h.shows t l.items hinv).trans (hagree l List.mem_cons_self)
  shows_other _ _ _ _ _ _ hne := absurd rfl hne

/-- **A reporter at rest is up to date.** -/
theorem Sound.fresh {view : α → β} {Allowed : α → α → Prop} {Inv : τ → Prop}
    (h : r.Sound view Allowed Inv)
    {start s : ControllerState (ObjectCache name) (ObjectEvent α) κ τ} (hinv : Inv start.own)
    (hstart : start.queue ≠ [] ∨
      start.work = none ∧ r.shows start.own = r.statistic start.cache.items)
    (hrun : (r.controller name).Run (Happens Allowed) Inv start s)
    (hqueue : s.queue = []) (hpending : ∀ e ∈ s.pending, r.filter.passes e = false)
    (hwork : s.work = none) : r.shows s.own = r.statistic s.cache.items := by
  have hcovered : ∀ i, (r.controller name).Covered start i := by
    intro i
    rcases hstart with hstart | ⟨hidle, hshown⟩
    · obtain ⟨k, hk⟩ := List.exists_mem_of_ne_nil _ hstart
      exact Or.inl (Or.inl ⟨k, hk, rfl⟩)
    · refine Or.inr (Or.inr ⟨fun k seen hat => ?_, hshown⟩)
      rw [hidle] at hat
      cases hat
  refine hrun.shows h.controller hinv hcovered (i := ()) ?_ fun k seen hat => ?_
  · rintro (⟨k, hk, -⟩ | ⟨e, he, hasks⟩)
    · rw [hqueue] at hk
      cases hk
    · rw [asks_iff, hpending e he] at hasks
      cases hasks
  · rw [hwork] at hat
    cases hat

end Reporter
