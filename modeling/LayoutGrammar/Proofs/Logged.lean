import LayoutGrammar.Logged
import Mathlib.Data.List.Forall2

/-!
# What logged computations result in

`result` carries a loop of logged steps over to a loop of plain ones (`result_foldlM`), and to a
fold when no step can fail (`result_foldlM_of_ok`). `foldlM_invariant` is the rule for loops that
can fail: what every step keeps holds at the end. A computation with one way to fail (`FailsUnless`)
succeeds under a condition that is put together from those of its steps.
-/

namespace LayoutGrammar

namespace Logged

variable {ν ε α β σ : Type}

@[simp] theorem result_map (f : α → β) (x : Logged ν ε α) :
    (f <$> x).result = f <$> x.result := by
  rw [← bind_pure_comp, result_bind, ← bind_pure_comp]
  rfl

/-- A loop of logged steps results in what the loop of their results gives. -/
theorem result_foldlM (f : σ → α → Logged ν ε σ) (s : σ) (items : List α) :
    (items.foldlM f s).result = items.foldlM (fun s a => (f s a).result) s := by
  induction items generalizing s with
  | nil => rfl
  | cons a rest ih => simp only [List.foldlM_cons, result_bind, ih]

/-- A loop in which no step fails is a fold. -/
theorem result_foldlM_of_ok {f : σ → α → Logged ν ε σ} {g : σ → α → σ}
    (h : ∀ s a, (f s a).result = .ok (g s a)) (s : σ) (items : List α) :
    (items.foldlM f s).result = .ok (items.foldl g s) := by
  induction items generalizing s with
  | nil => rfl
  | cons a rest ih =>
    rw [List.foldlM_cons, result_bind, h, List.foldl_cons]
    exact ih _

end Logged

section Except

variable {ε α β σ : Type}

@[simp] theorem ok_bind (a : α) (f : α → Except ε β) : (Except.ok a >>= f) = f a := rfl

theorem ok_eq_ok_iff {a b : α} : (Except.ok a : Except ε α) = .ok b ↔ b = a :=
  ⟨fun h => (Except.ok.inj h).symm, fun h => congrArg Except.ok h.symm⟩

theorem except_bind_ok {x : Except ε α} {f : α → Except ε β} {b : β} :
    x >>= f = .ok b ↔ ∃ a, x = .ok a ∧ f a = .ok b := by
  cases x with
  | error e => exact ⟨fun h => (nomatch h), fun ⟨_, h, _⟩ => nomatch h⟩
  | ok a => exact ⟨fun h => ⟨a, rfl, h⟩, fun ⟨_, ha, h⟩ => Except.ok.inj ha ▸ h⟩

theorem except_bind_error {x : Except ε α} {f : α → Except ε β} {e : ε} :
    x >>= f = .error e ↔ x = .error e ∨ ∃ a, x = .ok a ∧ f a = .error e := by
  cases x with
  | error e' =>
    refine ⟨fun h => .inl (congrArg Except.error (Except.error.inj h)), ?_⟩
    rintro (h | ⟨_, ⟨⟩, _⟩)
    exact congrArg Except.error (Except.error.inj h)
  | ok a =>
    refine ⟨fun h => .inr ⟨a, rfl, h⟩, ?_⟩
    rintro (⟨⟨⟩⟩ | ⟨_, ⟨⟩, h⟩)
    exact h

theorem except_map_ok {x : Except ε α} {f : α → β} {b : β} :
    f <$> x = .ok b ↔ ∃ a, x = .ok a ∧ b = f a := by
  cases x with
  | error e => exact ⟨fun h => (nomatch h), fun ⟨_, h, _⟩ => nomatch h⟩
  | ok a =>
    constructor
    · intro h
      exact ⟨a, rfl, (Except.ok.inj h).symm⟩
    · rintro ⟨_, ⟨⟩, rfl⟩
      rfl

theorem except_map_error {x : Except ε α} {f : α → β} {e : ε} :
    f <$> x = .error e ↔ x = .error e := by
  cases x with
  | error e' => exact ⟨fun h => congrArg Except.error (Except.error.inj h), fun h => h ▸ rfl⟩
  | ok a => exact ⟨nofun, nofun⟩

theorem eq_ok_of_toOption {x : Except ε α} {a : α} (h : x.toOption = some a) : x = .ok a := by
  cases x with
  | error e => cases h
  | ok b => exact congrArg Except.ok (Option.some.inj h)

/-- A loop of checks passes exactly if every check does. -/
theorem forM_eq_ok_iff {f : α → Except ε Unit} {items : List α} :
    items.forM f = .ok () ↔ ∀ a ∈ items, f a = .ok () := by
  induction items with
  | nil => exact ⟨fun _ _ ha => (nomatch ha), fun _ => rfl⟩
  | cons a rest ih =>
    change (f a >>= fun _ => rest.forM f) = .ok () ↔ _
    rw [except_bind_ok, List.forall_mem_cons]
    constructor
    · rintro ⟨_, ha, hrest⟩
      exact ⟨ha, ih.1 hrest⟩
    · rintro ⟨ha, hrest⟩
      exact ⟨(), ha, ih.2 hrest⟩

/-- A loop of checks that fails does so at one of its items. -/
theorem exists_of_forM_error {f : α → Except ε Unit} {items : List α} {e : ε}
    (h : items.forM f = .error e) : ∃ a ∈ items, f a = .error e := by
  induction items with
  | nil => cases h
  | cons a rest ih =>
    change (f a >>= fun _ => rest.forM f) = .error e at h
    rcases except_bind_error.1 h with ha | ⟨_, -, hrest⟩
    · exact ⟨a, List.mem_cons_self, ha⟩
    · obtain ⟨b, hb, hfb⟩ := ih hrest
      exact ⟨b, List.mem_cons_of_mem _ hb, hfb⟩

/-- A loop of checks ends with the error of the first item that fails. -/
theorem forM_eq_find? {f : α → Except ε Unit} {bad : α → Bool} {err : α → ε} {items : List α}
    (h : ∀ a ∈ items, f a = if bad a then .error (err a) else .ok ()) :
    items.forM f = (items.find? bad).elim (.ok ()) fun a => .error (err a) := by
  induction items with
  | nil => rfl
  | cons a rest ih =>
    have hhead := h a List.mem_cons_self
    have hrest := ih fun b hb => h b (List.mem_cons_of_mem _ hb)
    change (f a >>= fun _ => rest.forM f) = _
    rw [hhead, hrest, List.find?_cons]
    cases bad a <;> rfl

/-- What every step of a loop keeps holds at its end. -/
theorem foldlM_invariant {f : σ → α → Except ε σ} {I : σ → Prop} {items : List α} {s s' : σ}
    (hstep : ∀ a ∈ items, ∀ s s', I s → f s a = .ok s' → I s')
    (h : items.foldlM f s = .ok s') (hs : I s) : I s' := by
  induction items generalizing s with
  | nil => exact Except.ok.inj h ▸ hs
  | cons a rest ih =>
    rw [List.foldlM_cons] at h
    obtain ⟨s₁, h₁, h⟩ := except_bind_ok.1 h
    exact ih (fun b hb => hstep b (List.mem_cons_of_mem _ hb)) h
      (hstep a List.mem_cons_self s s₁ hs h₁)

/-- A loop that changes every item succeeds exactly if every step does. -/
theorem mapM_eq_ok_iff {f : α → Except ε β} {items : List α} {images : List β} :
    items.mapM f = .ok images ↔ List.Forall₂ (fun a b => f a = .ok b) items images := by
  induction items generalizing images with
  | nil =>
    rw [List.mapM_nil, List.forall₂_nil_left_iff]
    exact ok_eq_ok_iff
  | cons a rest ih =>
    rw [List.mapM_cons, except_bind_ok, List.forall₂_cons_left_iff]
    constructor
    · rintro ⟨b, hb, h⟩
      obtain ⟨others, hothers, h⟩ := except_bind_ok.1 h
      exact ⟨b, others, hb, ih.1 hothers, (Except.ok.inj h).symm⟩
    · rintro ⟨b, others, hb, hothers, rfl⟩
      refine ⟨b, hb, ?_⟩
      rw [ih.2 hothers]
      rfl

/-- A loop over changed items that changes what it gives is the loop, changed at its end. -/
theorem mapM_map_result {γ : Type} (f : α → Except ε β) (g : β → γ) (items : List α) :
    items.mapM (fun a => g <$> f a) = List.map g <$> items.mapM f := by
  induction items with
  | nil => rfl
  | cons a rest ih =>
    rw [List.mapM_cons, List.mapM_cons, ih]
    cases f a with
    | error cause => rfl
    | ok b => cases rest.mapM f <;> rfl

end Except

/-! ## One way to fail -/

section

variable {ε α β : Type} {e : ε} {P Q : Prop} {x : Except ε α}

/-- A computation that succeeds under a condition and fails with one and the same error
otherwise. -/
structure FailsUnless (e : ε) (P : Prop) (x : Except ε α) : Prop where
  ok : P → ∃ a, x = .ok a
  error : ¬ P → x = .error e

namespace FailsUnless

theorem exists_ok_iff (h : FailsUnless e P x) : (∃ a, x = .ok a) ↔ P := by
  refine ⟨fun ⟨a, ha⟩ => ?_, h.ok⟩
  by_cases hP : P
  · exact hP
  · rw [h.error hP] at ha
    cases ha

theorem of_error {e' : ε} (h : FailsUnless e P x) (herror : x = .error e') : ¬ P ∧ e' = e := by
  have hP : ¬ P := by
    intro hP
    obtain ⟨a, ha⟩ := h.ok hP
    rw [ha] at herror
    cases herror
  exact ⟨hP, Except.error.inj (herror.symm.trans (h.error hP))⟩

theorem congr (h : FailsUnless e P x) (hiff : P ↔ Q) : FailsUnless e Q x :=
  ⟨fun hQ => h.ok (hiff.2 hQ), fun hQ => h.error fun hP => hQ (hiff.1 hP)⟩

theorem of_ok {a : α} (h : x = .ok a) (hP : P) : FailsUnless e P x :=
  ⟨fun _ => ⟨a, h⟩, fun hP' => absurd hP hP'⟩

theorem bind {f : α → Except ε β} (hx : FailsUnless e P x) (hf : ∀ a, FailsUnless e Q (f a)) :
    FailsUnless e (P ∧ Q) (x >>= f) := by
  by_cases hP : P
  · obtain ⟨a, rfl⟩ := hx.ok hP
    exact (hf a).congr (and_iff_right hP).symm
  · rw [hx.error hP]
    exact ⟨fun h => absurd h.1 hP, fun _ => rfl⟩

theorem map (hx : FailsUnless e P x) (f : α → β) : FailsUnless e P (f <$> x) := by
  refine ⟨fun hP => ?_, fun hP => ?_⟩
  · obtain ⟨a, rfl⟩ := hx.ok hP
    exact ⟨f a, rfl⟩
  · rw [hx.error hP]
    rfl

/-- A loop fails unless all its steps succeed. -/
theorem mapM {P : α → Prop} {f : α → Except ε β} {items : List α}
    (h : ∀ a ∈ items, FailsUnless e (P a) (f a)) :
    FailsUnless e (∀ a ∈ items, P a) (items.mapM f) := by
  induction items with
  | nil => exact of_ok rfl nofun
  | cons a rest ih =>
    rw [List.mapM_cons]
    have hrest := ih fun b hb => h b (List.mem_cons_of_mem _ hb)
    refine ((h a List.mem_cons_self).bind fun b => hrest.map (b :: ·)).congr ?_
    exact List.forall_mem_cons.symm

end FailsUnless

end

end LayoutGrammar
