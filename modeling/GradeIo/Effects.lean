import GradeIo.App

/-!
# What a handler writes

`OnlyWrites P x`: whatever the world, and however `x` ends, the store it leaves
is the one it found after some writes, all of which meet `P`. The rules follow
the parts of which handlers are made; a handler that writes nothing has `P`
constantly false (`OnlyWrites.store_eq`). `KeepsUser x` says the same of the
current user, with rules for the same parts.
-/

namespace GradeIo

open DocDb

/-- The world that a run leaves, also where it halts. -/
def App.after {α : Type} (x : App α) (σ : World) : World :=
  match x.run σ with
  | .ok _ σ' => σ'
  | .error _ σ' => σ'

def OnlyWrites {α : Type} (P : Write → Prop) (x : App α) : Prop :=
  ∀ σ, ∃ ws, (∀ w ∈ ws, P w) ∧ (App.after x σ).store = σ.store.applyAll ws

namespace App

section

variable {α β : Type} {σ σ' : World} {x : App α}

theorem after_of_ok {a : α} (h : x.run σ = .ok a σ') : after x σ = σ' := by
  rw [after, h]

theorem after_bind (x : App α) (f : α → App β) :
    after (x >>= f) σ = match x.run σ with
      | .ok a σ' => after (f a) σ'
      | .error _ σ' => σ' := by
  rw [after, EStateM.run_bind]
  cases x.run σ <;> rfl

/-- What is made of the value in the end. -/
theorem after_bind_pure (x : App α) (f : α → β) :
    after (x >>= fun a => pure (f a)) σ = after x σ := by
  rw [after_bind, after]
  cases x.run σ <;> rfl

theorem after_perform (w : Option Write) :
    after (perform w) σ = match w with
      | some w => { σ with store := σ.store.apply w }
      | none => σ := by
  cases w <;> rfl

theorem after_perform_bind (w : Option Write) (f : Unit → App β) :
    after (perform w >>= f) σ = match w with
      | some w => after (f ()) { σ with store := σ.store.apply w }
      | none => σ := by
  cases w <;> rfl

theorem after_ask_bind (q : Store → Answer α) (f : α → App β) :
    after (ask q >>= f) σ = match q σ.store with
      | .ok a => after (f a) σ
      | .error _ => σ := by
  rw [after_bind, run_ask]
  cases q σ.store <;> rfl

@[simp] theorem after_detach (x : App Unit) : after (detach x) σ = after x σ := by
  have hx : x.run σ = x σ := rfl
  have hd : (detach x).run σ = detach x σ := rfl
  rw [after, after, hx, hd, detach]
  rcases x σ with ⟨⟨⟩, σ₁⟩ | ⟨_ | _, σ₁⟩ <;> rfl

end

end App

namespace OnlyWrites

variable {α β : Type} {P Q : Write → Prop} {x : App α}

/-- A part that leaves the store alone. -/
theorem of_store_eq (h : ∀ σ, (App.after x σ).store = σ.store) : OnlyWrites P x :=
  fun σ => ⟨[], by simp, h σ⟩

theorem pure (a : α) : OnlyWrites P (Pure.pure a : App α) := of_store_eq fun _ => rfl

theorem throw (e : Halt) : OnlyWrites P (MonadExcept.throw e : App α) := of_store_eq fun _ => rfl

theorem get : OnlyWrites P (MonadState.get : App World) := of_store_eq fun _ => rfl

theorem unwrap (o : Option α) : OnlyWrites P (App.unwrap o) := by
  cases o with
  | none => exact throw _
  | some a => exact pure a

theorem ask (q : Store → Answer α) : OnlyWrites P (App.ask q) := by
  refine of_store_eq fun σ => ?_
  rw [App.after, App.run_ask]
  cases q σ.store <;> rfl

theorem performSegue (screen : String) : OnlyWrites P (App.performSegue screen) :=
  of_store_eq fun _ => rfl

theorem setCurrentClassroom (c : Classroom) : OnlyWrites P (App.setCurrentClassroom c) :=
  of_store_eq fun _ => rfl

theorem perform {w : Option Write} (h : ∀ w' ∈ w, P w') : OnlyWrites P (App.perform w) := by
  cases w with
  | none => exact throw _
  | some w => exact fun σ => ⟨[w], by simpa using h w rfl, rfl⟩

theorem bind {f : α → App β} (hx : OnlyWrites P x) (hf : ∀ a, OnlyWrites P (f a)) :
    OnlyWrites P (x >>= f) := by
  intro σ
  obtain ⟨ws, hws, hstore⟩ := hx σ
  rw [App.after] at hstore
  rw [App.after_bind]
  cases hrun : x.run σ with
  | error e σ' =>
      rw [hrun] at hstore
      exact ⟨ws, hws, hstore⟩
  | ok a σ' =>
      rw [hrun] at hstore
      obtain ⟨ws', hws', hstore'⟩ := hf a σ'
      refine ⟨ws ++ ws', fun w hw => ?_, ?_⟩
      · exact (List.mem_append.mp hw).elim (hws w) (hws' w)
      · rw [hstore', hstore, Store.applyAll, Store.applyAll, Store.applyAll, List.foldl_append]

/-- After an unwrap there is a value. -/
theorem unwrap_bind {o : Option α} {f : α → App β} (hf : ∀ a, o = some a → OnlyWrites P (f a)) :
    OnlyWrites P (App.unwrap o >>= f) := by
  cases o with
  | none => exact of_store_eq fun _ => rfl
  | some a => exact hf a rfl

theorem detach {x : App Unit} (hx : OnlyWrites P x) : OnlyWrites P (App.detach x) := by
  intro σ
  rw [App.after_detach]
  exact hx σ

theorem ite {c : Prop} [Decidable c] {y : App α} (hx : OnlyWrites P x) (hy : OnlyWrites P y) :
    OnlyWrites P (if c then x else y) := by
  split
  · exact hx
  · exact hy

theorem mono (hPQ : ∀ w, P w → Q w) (hx : OnlyWrites P x) : OnlyWrites Q x := by
  intro σ
  obtain ⟨ws, hws, hstore⟩ := hx σ
  exact ⟨ws, fun w hw => hPQ w (hws w hw), hstore⟩

/-- Where nothing may be written, nothing changes. -/
theorem store_eq (h : OnlyWrites (fun _ => False) x) (σ : World) :
    (App.after x σ).store = σ.store := by
  obtain ⟨ws, hws, hstore⟩ := h σ
  obtain rfl : ws = [] := List.eq_nil_iff_forall_not_mem.mpr hws
  exact hstore

end OnlyWrites

/-- Whatever the world, and however `x` ends, the current user is the one it found. -/
def KeepsUser {α : Type} (x : App α) : Prop :=
  ∀ σ, (App.after x σ).currentUser = σ.currentUser

namespace KeepsUser

variable {α β : Type} {x : App α}

theorem pure (a : α) : KeepsUser (Pure.pure a : App α) := fun _ => rfl

theorem throw (e : Halt) : KeepsUser (MonadExcept.throw e : App α) := fun _ => rfl

theorem get : KeepsUser (MonadState.get : App World) := fun _ => rfl

theorem unwrap (o : Option α) : KeepsUser (App.unwrap o) := by
  cases o with
  | none => exact throw _
  | some a => exact pure a

theorem ask (q : Store → Answer α) : KeepsUser (App.ask q) := by
  intro σ
  rw [App.after, App.run_ask]
  cases q σ.store <;> rfl

theorem perform (w : Option Write) : KeepsUser (App.perform w) := by
  intro σ
  rw [App.after_perform]
  cases w <;> rfl

theorem performSegue (screen : String) : KeepsUser (App.performSegue screen) := fun _ => rfl

theorem setCurrentClassroom (c : Classroom) : KeepsUser (App.setCurrentClassroom c) := fun _ => rfl

theorem bind {f : α → App β} (hx : KeepsUser x) (hf : ∀ a, KeepsUser (f a)) :
    KeepsUser (x >>= f) := by
  intro σ
  have hx := hx σ
  rw [App.after] at hx
  rw [App.after_bind]
  cases hrun : x.run σ with
  | error e σ' =>
      rw [hrun] at hx
      exact hx
  | ok a σ' =>
      rw [hrun] at hx
      exact (hf a σ').trans hx

theorem detach {x : App Unit} (hx : KeepsUser x) : KeepsUser (App.detach x) := by
  intro σ
  rw [App.after_detach]
  exact hx σ

theorem ite {c : Prop} [Decidable c] {y : App α} (hx : KeepsUser x) (hy : KeepsUser y) :
    KeepsUser (if c then x else y) := by
  split
  · exact hx
  · exact hy

/-- What comes after an assignment leaves the user that was assigned. -/
theorem after_setCurrentUser {f : Unit → App α} (hf : ∀ a, KeepsUser (f a)) (u : IUser)
    (σ : World) : (App.after (App.setCurrentUser u >>= f) σ).currentUser = u :=
  hf () { σ with currentUser := u }

theorem mapM {f : α → App β} (hf : ∀ a, KeepsUser (f a)) : ∀ as : List α, KeepsUser (as.mapM f)
  | [] => by
      rw [List.mapM_nil]
      exact pure _
  | a :: as => by
      rw [List.mapM_cons]
      exact bind (hf a) fun _ => bind (mapM hf as) fun _ => pure _

theorem forM {f : α → App Unit} (hf : ∀ a, KeepsUser (f a)) : ∀ as : List α, KeepsUser (as.forM f)
  | [] => pure ()
  | a :: as => bind (hf a) fun _ => forM hf as

theorem foldlM {f : β → α → App β} (hf : ∀ b a, KeepsUser (f b a)) :
    ∀ (as : List α) (b : β), KeepsUser (as.foldlM f b)
  | [], b => pure b
  | a :: as, b => by
      rw [List.foldlM_cons]
      exact bind (hf b a) fun b' => foldlM hf as b'

end KeepsUser

end GradeIo
