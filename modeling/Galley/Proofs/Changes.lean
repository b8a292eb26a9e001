import Galley.Proofs.Outcomes
import Galley.Resolver

/-!
Changes of a model in place.

A change made of two is the one and then the other, on the model that the first one left
(`Change.on_bind`). Storing a value puts its entry when it has a plain form
(`Model.store_of_plain`). The attempt at a change is made of the attempts at its parts
(`Change.attempt_bind`), so that a value is stored, and a service API is, as the parts tell
(`Model.insert_eq`, `Resolver.run_serviceApi`).
-/

namespace Galley

variable [CallerTypes]

namespace Change

variable {α β : Type}

/-- A change made of two. -/
theorem on_bind (x : Change α) (f : α → Change β) (m : Model) :
    (x >>= f).on m = x.on m >>= fun r =>
      match r.1 with
      | .ok a => (f a).on r.2
      | .error e => pure (.error e, r.2) := by
  rw [on, ExceptT.run_bind, StateT.run_bind]
  refine congrArg (x.on m >>= ·) (funext fun r => ?_)
  obtain ⟨outcome, left⟩ := r
  cases outcome <;> rfl

@[simp] theorem on_ofExcept (y : Except ModelFault α) (m : Model) :
    (ofExcept y).on m = pure (y, m) := rfl

theorem on_replace (f : Model → Logged Model) (m : Model) :
    (replace f).on m = f m >>= fun m' => pure (.ok (), m') := rfl

@[simp] theorem ofExcept_ok_bind (a : α) (f : α → Change β) : ofExcept (.ok a) >>= f = f a := rfl

@[simp] theorem ofExcept_error_bind (e : ModelFault) (f : α → Change β) :
    ofExcept (.error e) >>= f = ofExcept (.error e) := rfl

section Outcomes

variable (x : Change α) (y : Except ModelFault α) (f : Unit → Change β) (g : Model → Logged Model)
  (level : LogLevel) (text : String) (m : Model)

@[simp] theorem outcome_ofExcept : (ofExcept y).outcome m = y := rfl

@[simp] theorem left_ofExcept : (ofExcept y).left m = m := rfl

@[simp] theorem outcome_write_bind : (write level text >>= f).outcome m = (f ()).outcome m := rfl

@[simp] theorem left_write_bind : (write level text >>= f).left m = (f ()).left m := rfl

@[simp] theorem outcome_replace : (replace g).outcome m = .ok () := rfl

@[simp] theorem left_replace : (replace g).left m = (g m).value := rfl

@[simp] theorem outcome_replace_bind :
    (replace g >>= f).outcome m = (f ()).outcome (g m).value := rfl

@[simp] theorem left_replace_bind : (replace g >>= f).left m = (f ()).left (g m).value := rfl

end Outcomes

/-! ### Attempts -/

theorem run_attempt (x : Change Unit) (m : Model) :
    (x.attempt m).run = x.on m >>= fun r => pure (r.1.map fun _ => r.2) := rfl

/-- An attempt gives the model that is left, or the fault. -/
theorem outcome_attempt (x : Change Unit) (m : Model) :
    (x.attempt m).outcome = (x.outcome m).map fun _ => x.left m := rfl

/-- The attempt at a change made of two. -/
theorem attempt_bind (x : Change Unit) (f : Unit → Change Unit) (m : Model) :
    (x >>= f).attempt m = x.attempt m >>= fun left => (f ()).attempt left := by
  apply ExceptT.ext
  rw [run_attempt, ExceptT.run_bind, run_attempt, on_bind, bind_assoc, bind_assoc]
  refine congrArg (x.on m >>= ·) (funext fun r => ?_)
  obtain ⟨outcome, left⟩ := r
  cases outcome with
  | error e => rfl
  | ok a =>
      rw [pure_bind]
      rfl

theorem attempt_ofExcept_bind (y : Except ModelFault α) (f : α → Change Unit) (m : Model) :
    (ofExcept y >>= f).attempt m = Attempt.ofExcept y >>= fun a => (f a).attempt m := by
  cases y <;> rfl

theorem attempt_write_bind (level : LogLevel) (text : String) (f : Unit → Change Unit)
    (m : Model) :
    (write level text >>= f).attempt m = Attempt.write level text >>= fun _ => (f ()).attempt m :=
  rfl

theorem attempt_replace (f : Model → Logged Model) (m : Model) :
    (replace f).attempt m = liftM (f m) := by
  apply ExceptT.ext
  rw [run_attempt, on_replace, bind_assoc]
  rfl

end Change

/-! ### Storing a value -/

namespace Model

variable {k : Kind} {key : String} {v : k.Carrier}

/-- A value with a plain form is put with it. -/
theorem store_of_plain {j : Json} (h : k.toJson v = .ok j) :
    store k key v = Change.replace (put key ⟨k, v, j⟩) := by
  rw [store, Entry.ofValue, h]
  rfl

theorem insert_eq (k : Kind) (key : String) (v : k.Carrier) (m : Model) :
    m.insert k key v = (do
      let e ← Attempt.ofExcept ((Entry.ofValue k v).mapError ModelFault.notPlain)
      liftM (m.put key e)) := by
  simp only [insert, store, Change.attempt_ofExcept_bind, Change.attempt_replace]

end Model

/-- The resolver of a service API reads four lists and inserts them. -/
theorem Resolver.run_serviceApi (d : Document) (m : Model) :
    serviceApi.run d m = (do
      let datasources ← Attempt.ofExcept (readEntities .datasource d)
      let services ← Attempt.ofExcept (readEntities .service d)
      let restResources ← Attempt.ofExcept (readEntities .restResource d)
      let dataAccesses ← Attempt.ofExcept (readEntities .dataAccess d)
      Attempt.write .debug
        ("Resolved " ++ toString datasources.length ++ " datasources, " ++
          toString services.length ++ " services, " ++
          toString restResources.length ++ " rest resources, " ++
          toString dataAccesses.length ++ " data accesses")
      let m ← m.insert (.entities .datasource) EntityKind.datasource.key datasources
      let m ← m.insert (.entities .service) EntityKind.service.key services
      let m ← m.insert (.entities .restResource) EntityKind.restResource.key restResources
      m.insert (.entities .dataAccess) EntityKind.dataAccess.key dataAccesses) := by
  simp only [serviceApi, storeServiceApi, Change.attempt_ofExcept_bind,
    Change.attempt_write_bind]
  simp only [Change.attempt_bind, Model.insert]

end Galley
