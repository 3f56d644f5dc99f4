import Mathlib.Data.List.Forall2

/-!
# Loops that may fail

A loop does one thing after the other, until one of them fails. They are numbered.

* `each` — the loop.
* `each_keeps`, `each_mem` — what every step keeps, the loop keeps, and each thing was done once.
* `each_appends` — a loop whose steps append one entry each.
* `Simulates` — a step and its image under a map between their states; `Simulates.each` — **loops whose
  steps are simulated are simulated.**
-/

namespace Loops

variable {ε σ τ α α' β : Type}

def each (step : Nat → α → σ → Except ε σ) : Nat → List α → σ → Except ε σ
  | _, [], s => .ok s
  | k, a :: rest, s => (step k a s).bind (each step (k + 1) rest)

theorem exists_of_isOk {x : Except ε σ} (h : x.isOk = true) : ∃ s, x = .ok s := by
  cases x with
  | error e => cases h
  | ok s => exact ⟨s, rfl⟩

theorem bind_eq_ok {x : Except ε σ} {f : σ → Except ε τ} {t : τ} (h : x.bind f = .ok t) :
    ∃ s, x = .ok s ∧ f s = .ok t := by
  cases x with
  | error e => cases h
  | ok s => exact ⟨s, rfl, h⟩

variable {step : Nat → α → σ → Except ε σ} {I : σ → Prop} {as : List α} {k : Nat} {s s' : σ}

/-- What every step keeps, the loop keeps. -/
theorem each_keeps (hkeeps : ∀ k a s s', a ∈ as → I s → step k a s = .ok s' → I s') (hI : I s)
    (h : each step k as s = .ok s') : I s' := by
  induction as generalizing k s with
  | nil =>
    cases h
    exact hI
  | cons a rest ih =>
    obtain ⟨s₁, hstep, hrest⟩ := bind_eq_ok h
    exact ih (fun k b s s' hb => hkeeps k b s s' (List.mem_cons_of_mem _ hb))
      (hkeeps k a s s₁ List.mem_cons_self hI hstep) hrest

/-- Each thing was done, in a state that the steps before have kept. -/
theorem each_mem (hkeeps : ∀ k a s s', a ∈ as → I s → step k a s = .ok s' → I s') (hI : I s)
    (h : each step k as s = .ok s') {a : α} (ha : a ∈ as) : ∃ k s₁ s₂, I s₁ ∧ step k a s₁ = .ok s₂ := by
  induction as generalizing k s with
  | nil => cases ha
  | cons b rest ih =>
    obtain ⟨s₁, hstep, hrest⟩ := bind_eq_ok h
    rcases List.mem_cons.mp ha with rfl | ha
    · exact ⟨k, s, s₁, hI, hstep⟩
    · exact ih (fun k b s s' hb => hkeeps k b s s' (List.mem_cons_of_mem _ hb))
        (hkeeps k b s s₁ List.mem_cons_self hI hstep) hrest ha

/-- What is seen of the state grows by one entry in each step. -/
theorem each_appends (view : σ → List β) {R : α → β → Prop}
    (hstep : ∀ k a s s', a ∈ as → step k a s = .ok s' → ∃ b, R a b ∧ view s' = view s ++ [b])
    (h : each step k as s = .ok s') : ∃ bs, List.Forall₂ R as bs ∧ view s' = view s ++ bs := by
  induction as generalizing k s with
  | nil =>
    cases h
    exact ⟨[], .nil, (List.append_nil _).symm⟩
  | cons a rest ih =>
    obtain ⟨s₁, hfirst, hrest⟩ := bind_eq_ok h
    obtain ⟨b, hb, hview⟩ := hstep k a s s₁ List.mem_cons_self hfirst
    obtain ⟨bs, hbs, hviews⟩ := ih (fun k b s s' hb => hstep k b s s' (List.mem_cons_of_mem _ hb)) hrest
    refine ⟨b :: bs, .cons hb hbs, ?_⟩
    rw [hviews, hview, List.append_assoc, List.singleton_append]

/-- What was made of each thing -/
theorem exists_of_mem {R : α → β → Prop} {bs : List β} (h : List.Forall₂ R as bs) {a : α} (ha : a ∈ as) :
    ∃ b ∈ bs, R a b := by
  induction h with
  | nil => cases ha
  | @cons a' b as bs hab _ ih =>
    rcases List.mem_cons.mp ha with rfl | ha
    · exact ⟨b, List.mem_cons_self, hab⟩
    · obtain ⟨b', hb', hR⟩ := ih ha
      exact ⟨b', List.mem_cons_of_mem _ hb', hR⟩

/-! ## Side by side -/

/-- A step on one state, and one on its image that does the same. -/
structure Simulates (I : σ → Prop) (f : σ → τ) (step : σ → Except ε σ) (step' : τ → Except ε τ) : Prop where
  keeps : ∀ s s', I s → step s = .ok s' → I s'
  commutes : ∀ s, I s → (step s).map f = step' (f s)

namespace Simulates

variable {f : σ → τ} {g : α → α'}

theorem bind {a b : σ → Except ε σ} {a' b' : τ → Except ε τ} (ha : Simulates I f a a')
    (hb : Simulates I f b b') : Simulates I f (fun s => (a s).bind b) fun t => (a' t).bind b' where
  keeps := by
    intro s s' hI h
    obtain ⟨s₁, hs₁, hrest⟩ := bind_eq_ok h
    exact hb.keeps s₁ s' (ha.keeps s s₁ hI hs₁) hrest
  commutes := by
    intro s hI
    rw [← ha.commutes s hI]
    cases hs : a s with
    | error e => rfl
    | ok s₁ => exact hb.commutes s₁ (ha.keeps s s₁ hI hs)

theorem mapError {ε' : Type} {a : σ → Except ε σ} {a' : τ → Except ε τ} (ha : Simulates I f a a')
    (e : ε → ε') : Simulates I f (fun s => (a s).mapError e) fun t => (a' t).mapError e where
  keeps := by
    intro s s' hI h
    cases hs : a s with
    | error e =>
      rw [hs] at h
      cases h
    | ok s₁ =>
      rw [hs] at h
      cases h
      exact ha.keeps s s' hI hs
  commutes := by
    intro s hI
    rw [← ha.commutes s hI]
    cases a s <;> rfl

theorem fail (e : ε) : Simulates I f (fun _ => .error e) fun _ => .error e where
  keeps := by
    intro s s' hI h
    cases h
  commutes := fun _ _ => rfl

/-- **Two loops run side by side**, when their steps do. -/
theorem each {step : Nat → α → σ → Except ε σ} {step' : Nat → α' → τ → Except ε τ}
    (h : ∀ k, ∀ a ∈ as, Simulates I f (step k a) (step' k (g a))) (k : Nat) :
    Simulates I f (each step k as) (Loops.each step' k (as.map g)) := by
  induction as generalizing k with
  | nil => exact ⟨fun s s' hI h => Except.ok.inj h ▸ hI, fun s _ => rfl⟩
  | cons a rest ih =>
    exact (h k a List.mem_cons_self).bind (ih (fun k b hb => h k b (List.mem_cons_of_mem _ hb)) (k + 1))

theorem each_same {step : Nat → α → σ → Except ε σ} {step' : Nat → α → τ → Except ε τ}
    (h : ∀ k, ∀ a ∈ as, Simulates I f (step k a) (step' k a)) (k : Nat) :
    Simulates I f (Loops.each step k as) (Loops.each step' k as) := by
  have hall := each (g := fun a : α => a) h k
  rwa [List.map_id'] at hall

end Simulates

end Loops
