import Mathlib.Data.List.Forall2
import Mathlib.Logic.Function.Basic
import GradeIo.Lib.Transition

/-!
# A shared object edited through outboxes

Clients share one object. A client acts on its own view of the object, which
may be stale, and issues operations; they wait in the client's first-in
first-out outbox until they are committed one by one. A refresh gives a
client any version the object has had, either as it was or with the client's
own uncommitted operations applied on top.

`Protocol` fixes what the operations do, what a client's handler does with its
view, and how a view is refreshed. The state also keeps two ghosts: the
`history` of versions and the `log` of what the handlers put out.

`simulation` lifts a relation between two protocols' operations, objects and
views to a simulation of the systems.
-/

namespace Replica

open Transition

variable {Client Input Op Obj View Out : Type*}

structure Protocol (Client Input Op Obj View Out : Type*) where
  apply : Obj → Op → Obj
  /-- The view, the operations issued and the output; `none` if the handler fails. -/
  handle : Client → View → Input → Option (View × List Op × List Out)
  refresh : View → Obj → Option View

structure State (Client Op Obj View Out : Type*) where
  obj : Obj
  history : List Obj
  outbox : Client → List Op
  view : Client → View
  log : List Out

inductive Event (Client Input : Type*) where
  | act (c : Client) (i : Input)
  | commit (c : Client)
  | refresh (c : Client) (version : Nat) (ahead : Bool)

namespace Protocol

variable [DecidableEq Client] (P : Protocol Client Input Op Obj View Out)

def step (s : State Client Op Obj View Out) :
    Event Client Input → Option (State Client Op Obj View Out)
  | .act c i =>
      (P.handle c (s.view c) i).map fun h =>
        { s with
          view := Function.update s.view c h.1
          outbox := Function.update s.outbox c (s.outbox c ++ h.2.1)
          log := s.log ++ h.2.2 }
  | .commit c =>
      match s.outbox c with
      | [] => none
      | op :: rest => some { s with
          obj := P.apply s.obj op
          history := s.history ++ [P.apply s.obj op]
          outbox := Function.update s.outbox c rest }
  | .refresh c version ahead =>
      s.history[version]?.bind fun v =>
        (P.refresh (s.view c) (if ahead then (s.outbox c).foldl P.apply v else v)).map fun w =>
          { s with view := Function.update s.view c w }

def system (Init : State Client Op Obj View Out → Prop) :
    System (State Client Op Obj View Out) (Event Client Input) :=
  ⟨Init, P.step⟩

theorem step_act {P : Protocol Client Input Op Obj View Out} {s : State Client Op Obj View Out}
    {c : Client} {i : Input} {w : View} {ops : List Op} {outs : List Out}
    (h : P.handle c (s.view c) i = some (w, ops, outs)) :
    P.step s (.act c i) = some { s with
      view := Function.update s.view c w
      outbox := Function.update s.outbox c (s.outbox c ++ ops)
      log := s.log ++ outs } := by
  simp [step, h]

theorem run_step {P : Protocol Client Input Op Obj View Out}
    {Init : State Client Op Obj View Out → Prop}
    {ok : State Client Op Obj View Out → Event Client Input → Prop}
    {s s' : State Client Op Obj View Out} {e : Event Client Input}
    (h : (P.system Init).Run ok s) (hok : ok s e) (hs : P.step s e = some s') :
    (P.system Init).Run ok s' :=
  .step h hok hs

/-- Everything a step can do. -/
theorem step_cases {P : Protocol Client Input Op Obj View Out}
    {s s' : State Client Op Obj View Out} {e : Event Client Input}
    (h : P.step s e = some s') :
    (∃ c i w ops outs, e = .act c i ∧ P.handle c (s.view c) i = some (w, ops, outs)
        ∧ s' = { s with
            view := Function.update s.view c w
            outbox := Function.update s.outbox c (s.outbox c ++ ops)
            log := s.log ++ outs })
      ∨ (∃ c op rest, e = .commit c ∧ s.outbox c = op :: rest
        ∧ s' = { s with
            obj := P.apply s.obj op
            history := s.history ++ [P.apply s.obj op]
            outbox := Function.update s.outbox c rest })
      ∨ (∃ c version ahead v w, e = .refresh c version ahead ∧ v ∈ s.history
        ∧ P.refresh (s.view c) (if ahead then (s.outbox c).foldl P.apply v else v) = some w
        ∧ s' = { s with view := Function.update s.view c w }) := by
  cases e with
  | act c i =>
      simp only [step, Option.map_eq_some_iff] at h
      obtain ⟨⟨w, ops, outs⟩, hh, hs⟩ := h
      exact Or.inl ⟨c, i, w, ops, outs, rfl, hh, hs.symm⟩
  | commit c =>
      simp only [step] at h
      split at h
      · cases h
      · rename_i op rest hout
        exact Or.inr (Or.inl ⟨c, op, rest, rfl, hout, (Option.some.inj h).symm⟩)
  | refresh c version ahead =>
      simp only [step, Option.bind_eq_some_iff, Option.map_eq_some_iff] at h
      obtain ⟨v, hv, w, hw, hs⟩ := h
      exact Or.inr (Or.inr ⟨c, version, ahead, v, w, rfl, List.mem_of_getElem? hv, hw, hs.symm⟩)

/-! ### Emptying an outbox -/

/-- The operations at the front of an outbox, committed one after another. -/
theorem replay_commit {P : Protocol Client Input Op Obj View Out}
    (Init : State Client Op Obj View Out → Prop) {c : Client} {pre post : List Op}
    {s : State Client Op Obj View Out} (h : s.outbox c = pre ++ post) :
    ∃ t, (P.system Init).replay s ((List.replicate pre.length c).map .commit) = some t
      ∧ t.obj = pre.foldl P.apply s.obj
      ∧ t.outbox = Function.update s.outbox c post := by
  induction pre generalizing s with
  | nil => exact ⟨s, rfl, rfl, by rw [← show s.outbox c = post from h]; simp⟩
  | cons op pre ih =>
      obtain ⟨t, ht, hobj, hout⟩ := ih (s := { s with
        obj := P.apply s.obj op
        history := s.history ++ [P.apply s.obj op]
        outbox := Function.update s.outbox c (pre ++ post) }) (by simp)
      refine ⟨t, ?_, hobj, by simp [hout]⟩
      rw [List.length_cons, List.replicate_succ, List.map_cons, System.replay]
      simp only [system, step, h, List.cons_append, Option.bind_some]
      exact ht

end Protocol

/-! ## Refinement between protocols -/

section Refinement

variable {AInput AOp AObj AView : Type*}

/-- States related part by part; the logs are the same. -/
structure Related (robj : Obj → AObj → Prop) (rop : Op → AOp → Prop)
    (rview : Client → View → AView → Prop)
    (s : State Client Op Obj View Out) (t : State Client AOp AObj AView Out) : Prop where
  obj : robj s.obj t.obj
  history : List.Forall₂ robj s.history t.history
  outbox : ∀ c, List.Forall₂ rop (s.outbox c) (t.outbox c)
  view : ∀ c, rview c (s.view c) (t.view c)
  log : s.log = t.log

/-- What has to be shown of two protocols: operations, handlers and refreshes
keep the relations, and the abstract condition holds where the concrete one does. -/
structure Refines (P : Protocol Client Input Op Obj View Out)
    (A : Protocol Client AInput AOp AObj AView Out)
    (robj : Obj → AObj → Prop) (rop : Op → AOp → Prop) (rview : Client → View → AView → Prop)
    (okP : State Client Op Obj View Out → Event Client Input → Prop)
    (okA : State Client AOp AObj AView Out → Event Client AInput → Prop) : Prop where
  apply : ∀ v av op aop, robj v av → rop op aop → robj (P.apply v op) (A.apply av aop)
  handle : ∀ {s t c i w ops outs}, Related robj rop rview s t → okP s (.act c i) →
    P.handle c (s.view c) i = some (w, ops, outs) →
    ∃ ai aw aops, okA t (.act c ai) ∧ A.handle c (t.view c) ai = some (aw, aops, outs)
      ∧ rview c w aw ∧ List.Forall₂ rop ops aops
  refresh : ∀ {c w aw v av w'}, rview c w aw → robj v av → P.refresh w v = some w' →
    ∃ aw', A.refresh aw av = some aw' ∧ rview c w' aw'
  commit_ok : ∀ t c, okA t (.commit c)
  refresh_ok : ∀ t c n ahead, okA t (.refresh c n ahead)

variable {P : Protocol Client Input Op Obj View Out}
  {A : Protocol Client AInput AOp AObj AView Out}
  {robj : Obj → AObj → Prop} {rop : Op → AOp → Prop} {rview : Client → View → AView → Prop}
  {okP : State Client Op Obj View Out → Event Client Input → Prop}
  {okA : State Client AOp AObj AView Out → Event Client AInput → Prop}

/-- Related operations applied one after another. -/
theorem foldl_rel {f : Obj → Op → Obj} {g : AObj → AOp → AObj}
    (hfg : ∀ v av op aop, robj v av → rop op aop → robj (f v op) (g av aop))
    {ops : List Op} {aops : List AOp} (hops : List.Forall₂ rop ops aops)
    {v : Obj} {av : AObj} (hv : robj v av) : robj (ops.foldl f v) (aops.foldl g av) := by
  induction hops generalizing v av with
  | nil => exact hv
  | cons hop _ ih => exact ih (hfg _ _ _ _ hv hop)

/-- Pointwise relations survive an update on both sides. -/
theorem rel_update [DecidableEq Client] {α β : Type*} {r : Client → α → β → Prop}
    {f : Client → α} {g : Client → β} (h : ∀ c, r c (f c) (g c)) {c : Client} {x : α} {y : β}
    (hxy : r c x y) : ∀ c', r c' (Function.update f c x c') (Function.update g c y c') := by
  intro c'
  by_cases hc : c' = c
  · subst hc
    simpa using hxy
  · simpa [hc] using h c'

/-- Handlers with related outcomes. -/
theorem Related.act [DecidableEq Client] {s : State Client Op Obj View Out}
    {t : State Client AOp AObj AView Out} (hR : Related robj rop rview s t) {c : Client}
    {w : View} {aw : AView} {ops : List Op} {aops : List AOp} (outs : List Out)
    (hw : rview c w aw) (hops : List.Forall₂ rop ops aops) :
    Related robj rop rview
      { s with
        view := Function.update s.view c w
        outbox := Function.update s.outbox c (s.outbox c ++ ops)
        log := s.log ++ outs }
      { t with
        view := Function.update t.view c aw
        outbox := Function.update t.outbox c (t.outbox c ++ aops)
        log := t.log ++ outs } :=
  ⟨hR.obj, hR.history, rel_update hR.outbox (List.rel_append (hR.outbox c) hops),
    rel_update hR.view hw, by rw [hR.log]⟩

/-- Committing related operations. -/
theorem Refines.related_commit [DecidableEq Client] (h : Refines P A robj rop rview okP okA)
    {s : State Client Op Obj View Out} {t : State Client AOp AObj AView Out}
    (hR : Related robj rop rview s t) {c : Client} {op : Op} {rest : List Op} {aop : AOp}
    {arest : List AOp} (hop : rop op aop) (hrest : List.Forall₂ rop rest arest) :
    Related robj rop rview
      { s with
        obj := P.apply s.obj op
        history := s.history ++ [P.apply s.obj op]
        outbox := Function.update s.outbox c rest }
      { t with
        obj := A.apply t.obj aop
        history := t.history ++ [A.apply t.obj aop]
        outbox := Function.update t.outbox c arest } := by
  have hobj := h.apply _ _ _ _ hR.obj hop
  exact ⟨hobj, List.rel_append hR.history (.cons hobj .nil), rel_update hR.outbox hrest,
    hR.view, hR.log⟩

theorem Refines.simulation [DecidableEq Client] (h : Refines P A robj rop rview okP okA)
    {InitP : State Client Op Obj View Out → Prop}
    (InitA : State Client AOp AObj AView Out → Prop)
    (hinit : ∀ s, InitP s → ∃ t, InitA t ∧ Related robj rop rview s t) :
    Simulation (P.system InitP) okP (A.system InitA) okA (Related robj rop rview) where
  init := hinit
  step := by
    intro s t e s' hR hok hs
    right
    rcases Protocol.step_cases hs with ⟨c, i, w, ops, outs, rfl, hh, rfl⟩
      | ⟨c, op, rest, rfl, hout, rfl⟩ | ⟨c, n, ahead, v, w, rfl, -, -, -⟩
    · obtain ⟨ai, aw, aops, hoka, hha, hw, hops⟩ := h.handle hR hok hh
      exact ⟨.act c ai, _, hoka, Protocol.step_act hha,
        hR.act outs hw hops⟩
    · have hc := hR.outbox c
      rw [hout] at hc
      cases haout : t.outbox c with
      | nil => rw [haout] at hc; cases hc
      | cons aop arest =>
          rw [haout] at hc
          obtain ⟨hop, hrest⟩ := List.forall₂_cons.mp hc
          exact ⟨.commit c, _, h.commit_ok t c,
            by simp [Protocol.system, Protocol.step, haout], h.related_commit hR hop hrest⟩
    · simp only [Protocol.system, Protocol.step, Option.bind_eq_some_iff,
        Option.map_eq_some_iff] at hs
      obtain ⟨v, hv, w, hw, rfl⟩ := hs
      obtain ⟨av, hav, hrv⟩ : ∃ av, t.history[n]? = some av ∧ robj v av := by
        have hlen := hR.history.length_eq
        obtain ⟨hn, rfl⟩ := List.getElem?_eq_some_iff.mp hv
        exact ⟨t.history.get ⟨n, hlen ▸ hn⟩, List.getElem?_eq_getElem _, hR.history.get hn (hlen ▸ hn)⟩
      have hseen : robj (if ahead then (s.outbox c).foldl P.apply v else v)
          (if ahead then (t.outbox c).foldl A.apply av else av) := by
        split
        · exact foldl_rel h.apply (hR.outbox c) hrv
        · exact hrv
      obtain ⟨aw, haw, hrw⟩ := h.refresh (hR.view c) hseen hw
      refine ⟨.refresh c n ahead, _, h.refresh_ok t c n ahead,
        by simp [Protocol.system, Protocol.step, hav, haw]; rfl, ?_⟩
      exact ⟨hR.obj, hR.history, hR.outbox, rel_update hR.view hrw, hR.log⟩

/-- Commits of the abstract system can be made in the concrete one. -/
theorem Refines.replay_commit [DecidableEq Client] (h : Refines P A robj rop rview okP okA)
    {InitP : State Client Op Obj View Out → Prop}
    {InitA : State Client AOp AObj AView Out → Prop} {cs : List Client}
    {s : State Client Op Obj View Out} {t t' : State Client AOp AObj AView Out}
    (hR : Related robj rop rview s t)
    (ht : (A.system InitA).replay t (cs.map .commit) = some t') :
    ∃ s', (P.system InitP).replay s (cs.map .commit) = some s' ∧ Related robj rop rview s' t' := by
  induction cs generalizing s t with
  | nil =>
      obtain rfl := Option.some.inj ht
      exact ⟨s, rfl, hR⟩
  | cons c cs ih =>
      simp only [List.map_cons, System.replay, Option.bind_eq_some_iff] at ht
      obtain ⟨t₁, hstep, hrest⟩ := ht
      simp only [Protocol.system, Protocol.step] at hstep
      have hc := hR.outbox c
      cases haout : t.outbox c with
      | nil =>
          rw [haout] at hstep
          cases hstep
      | cons aop arest =>
          rw [haout] at hstep hc
          obtain rfl := Option.some.inj hstep
          cases hout : s.outbox c with
          | nil =>
              rw [hout] at hc
              cases hc
          | cons op rest =>
              rw [hout] at hc
              obtain ⟨hop, hops⟩ := List.forall₂_cons.mp hc
              obtain ⟨s', hs', hR'⟩ := ih (h.related_commit hR hop hops) hrest
              refine ⟨s', ?_, hR'⟩
              simp only [List.map_cons, System.replay, Protocol.system, Protocol.step, hout,
                Option.bind_some]
              exact hs'

end Refinement

end Replica
