import ComponentMarkdown.Doc.OfMarkup
import ComponentMarkdown.Proofs.SlugRegistry

namespace ComponentMarkdown.Slugged

variable {α β : Type}

theorem run_pure (a : α) (registry : SlugRegistry) : (pure a : Slugged α).run registry = (a, registry) :=
  rfl

theorem run_bind (x : Slugged α) (f : α → Slugged β) (registry : SlugRegistry) :
    (x >>= f).run registry = (f (x.run registry).1).run (x.run registry).2 := rfl

/-- Whatever was issued before, the result has a property. -/
def Gives (post : α → Prop) (x : Slugged α) : Prop := ∀ registry, post (x.run registry).1

theorem Gives.pure {post : α → Prop} {a : α} (holds : post a) : Gives post (pure a) := by
  intro registry
  rw [run_pure]
  exact holds

theorem Gives.bind {post : α → Prop} {post' : β → Prop} {x : Slugged α} {f : α → Slugged β}
    (first : Gives post x) (next : ∀ a, post a → Gives post' (f a)) : Gives post' (x >>= f) := by
  intro registry
  rw [run_bind]
  exact next _ (first registry) _

theorem Gives.any (x : Slugged α) : Gives (fun _ => True) x := fun _ => trivial

/-- Two computations whose results are related and that leave the same registry, whatever was issued
before. -/
def Agrees (R : α → β → Prop) (x : Slugged α) (y : Slugged β) : Prop :=
  ∀ registry, R (x.run registry).1 (y.run registry).1 ∧ (x.run registry).2 = (y.run registry).2

theorem Agrees.pure {R : α → β → Prop} {a : α} {b : β} (related : R a b) :
    Agrees R (pure a) (pure b) := fun _ => ⟨related, rfl⟩

theorem Agrees.bind {γ δ : Type} {R : α → β → Prop} {R' : γ → δ → Prop} {x : Slugged α} {y : Slugged β}
    {f : α → Slugged γ} {g : β → Slugged δ} (first : Agrees R x y)
    (next : ∀ a b, R a b → Agrees R' (f a) (g b)) : Agrees R' (x >>= f) (y >>= g) := by
  intro registry
  obtain ⟨related, same⟩ := first registry
  rw [run_bind, run_bind, ← same]
  exact next _ _ related _

theorem Agrees.refl (x : Slugged α) : Agrees (· = ·) x x := fun _ => ⟨rfl, rfl⟩

theorem Gives.weaken {post post' : α → Prop} {x : Slugged α} (gives : Gives post x)
    (weaker : ∀ a, post a → post' a) : Gives post' x := fun registry => weaker _ (gives registry)

theorem Gives.and {post post' : α → Prop} {x : Slugged α} (first : Gives post x) (second : Gives post' x) :
    Gives (fun a => post a ∧ post' a) x := fun registry => ⟨first registry, second registry⟩

/-- Whatever was issued before, the computation issues slugs for some texts one after the other, and these anchors
have a property together with the result. -/
def Traces (post : List Anchor → α → Prop) (x : Slugged α) : Prop :=
  ∀ registry, ∃ anchors, post anchors (x.run registry).1 ∧ registry.Issued anchors ∧
    (x.run registry).2 = registry.after anchors

theorem Traces.pure {post : List Anchor → α → Prop} {a : α} (holds : post [] a) : Traces post (pure a) :=
  fun _ => ⟨[], holds, trivial, rfl⟩

theorem Traces.bind {post : List Anchor → α → Prop} {post' : List Anchor → β → Prop} {x : Slugged α}
    {f : α → Slugged β} (first : Traces post x)
    (next : ∀ anchors a, post anchors a → Traces (fun more b => post' (anchors ++ more) b) (f a)) :
    Traces post' (x >>= f) := by
  intro registry
  obtain ⟨anchors, holds, issued, behind⟩ := first registry
  obtain ⟨more, holds', issued', behind'⟩ := next anchors _ holds (x.run registry).2
  rw [behind] at issued' behind'
  refine ⟨anchors ++ more, ?_, SlugRegistry.issued_append.2 ⟨issued, issued'⟩, ?_⟩
  · rw [run_bind]
    exact holds'
  · rw [run_bind, behind, behind', SlugRegistry.after_append]

theorem Traces.weaken {post post' : List Anchor → α → Prop} {x : Slugged α} (traces : Traces post x)
    (weaker : ∀ anchors a, post anchors a → post' anchors a) : Traces post' x := by
  intro registry
  obtain ⟨anchors, holds, issued, behind⟩ := traces registry
  exact ⟨anchors, weaker anchors _ holds, issued, behind⟩

/-- The result and the anchors that led to it, with a property that the result has anyway. -/
theorem Traces.and_gives {post : List Anchor → α → Prop} {given : α → Prop} {x : Slugged α} (traces : Traces post x)
    (gives : Gives given x) : Traces (fun anchors a => post anchors a ∧ given a) x := by
  intro registry
  obtain ⟨anchors, holds, issued, behind⟩ := traces registry
  exact ⟨anchors, ⟨holds, gives registry⟩, issued, behind⟩

theorem Traces.issue (text : String) :
    Traces (fun anchors slug => anchors = [⟨text, slug⟩]) (fun registry => registry.issue text : Slugged String) :=
  fun registry => ⟨_, rfl, registry.issued_single text, rfl⟩

end ComponentMarkdown.Slugged
