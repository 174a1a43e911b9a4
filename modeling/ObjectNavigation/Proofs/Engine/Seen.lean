import ObjectNavigation.Proofs.Engine.Caching

/-!
What an expression sees. Of all that is outside the engine, the bodies of the library see the graph
and the root alone, so computations match in what is seen whatever host code has noted, counted and
set besides. A tree whose accessors match the nodes in whose place they stand matches its evaluation
without accessors and without constants (`Tree.handle_matches`).
-/

namespace ObjectNavigation

namespace Surface

def view (surface : Surface) : Heap × Value :=
  (surface.heap, surface.settings.root)

/-- The graph and the root, up to the identity of lists. -/
def seen (surface : Surface) : Heap × Value :=
  (surface.heap.erase, surface.settings.root.erase)

theorem sight_view : Script.Sight fun surface surface' => surface.view = surface'.view where
  heap h := congrArg Prod.fst h
  root h := congrArg Prod.snd h
  withHeap h heap := congrArg (fun view : Heap × Value => (heap, view.2)) h

theorem seen_of_erase {surface surface' : Surface} (h : surface.erase = surface'.erase) :
    surface.seen = surface'.seen :=
  Prod.ext (heap_eq h) (root_eq h)

theorem seen_of_view {surface surface' : Surface} (h : surface.view = surface'.view) :
    surface.seen = surface'.seen :=
  congrArg (fun view : Heap × Value => (view.1.erase, view.2.erase)) h

/-- Between surfaces of which the same is seen is one that differs from the first in identities of
lists alone, and from the second in nothing that can be seen. -/
theorem exists_between {surface surface' : Surface} (h : surface.seen = surface'.seen) :
    ∃ middle : Surface, surface.erase = middle.erase ∧ middle.view = surface'.view := by
  refine ⟨⟨{ surface.outside with heap := surface'.heap },
    { surface.settings with root := surface'.settings.root }⟩, ?_, rfl⟩
  have hheap : surface.outside.heap.erase = surface'.heap.erase := congrArg Prod.fst h
  have hroot : surface.settings.root.erase = surface'.settings.root.erase := congrArg Prod.snd h
  simp only [erase, Outside.erase, hheap, hroot]

end Surface

/-- A call depends on the graph alone, and changes it regardless of what has been noted. -/
theorem Registry.call_heap (registry : Registry) (call : Invocation) {outside outside' : Outside}
    (h : outside.heap = outside'.heap) :
    (registry.call call outside).1 = (registry.call call outside').1 ∧
      (registry.call call outside).2.heap = (registry.call call outside').2.heap := by
  simp only [Registry.call, h]
  cases registry.resolve outside'.heap call with
  | error cause => exact ⟨rfl, h⟩
  | ok method => simp only [run, Outside.note, h, and_self]

theorem Surface.telling_seen :
    Surface.Telling Surface.seen fun surface surface' => surface.view = surface'.view where
  between := exists_between
  of_erase := seen_of_erase
  of_sees := seen_of_view
  sight := sight_view
  call h registry call := by
    obtain ⟨houtcome, hheap⟩ := registry.call_heap call (sight_view.heap h)
    exact ⟨houtcome, Prod.ext hheap (congrArg Prod.snd h :)⟩

structure Accessor.Matches (accessor : Accessor) (env : Env) (property : Constants → Prop)
    (handle : Handle) : Prop where
  read : ∀ source source', source.erase = source'.erase →
    ((accessor.read source).run env.enter env.gateway).Matches Surface.seen property Value.Same
      (handle.get source')
  assign : ∀ target target' value value', target.erase = target'.erase →
    value.erase = value'.erase →
      ((accessor.assign target value).run env.enter env.gateway).Matches Surface.seen property Eq
        (handle.set target' value')

theorem Env.plain_none (gateway : Option Registry) (home : TreeId) :
    ({ gateway } : Env).Plain home :=
  fun _ => rfl

namespace Tree
variable {tree sub : Tree} {home : TreeId} {env : Env} {id : NodeId} {property : Constants → Prop}

theorem handle_matches (fit : Constants.Fit tree home property) (hsub : tree.Sub id sub)
    (reference : sub.isReference = true)
    (respects : ∀ registry ∈ env.gateway, registry.Respects)
    (accessors : ∀ id sub, tree.Sub id sub → ∀ accessor ∈ env.accessor home id,
      accessor.Matches env property (sub.uncached { gateway := env.gateway } home id)) :
    (sub.handle env home id).Matches Surface.seen property
      (sub.uncached { gateway := env.gateway } home id) :=
  Surface.telling_seen.handle fit hsub reference (Env.plain_none env.gateway home) rfl respects
    (fun id sub hsub accessor haccessor => (accessors id sub hsub accessor haccessor).read)
    fun id sub hsub accessor haccessor => (accessors id sub hsub accessor haccessor).assign

end Tree
end ObjectNavigation
