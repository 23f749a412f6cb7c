import TpSo.Commons.Listas

/-!
# The lists, as they are used

For those who call them the lists are sequences of pointers, each under its address. A call has its
answer and leaves another sequence, and only a removal past the end of a list that has elements does
not come back.
-/

namespace TpSo.Commons.Listas

open Function (update)

inductive Orden where
  | add (data : ℕ)
  | addInIndex (index : ℤ) (data : ℕ)
  | get (index : ℤ)
  | replace (index : ℤ) (data : ℕ)
  | remove (index : ℤ)
  | find (condition : ℕ → Bool)
  | removeByCondition (condition : ℕ → Bool)
  | size
  | isEmpty
  | clean
  | destroy
  | countSatisfying (condition : ℕ → Bool)
  | allSatisfy (condition : ℕ → Bool)

inductive Llamada where
  | create
  | filter (self : ℕ) (condition : ℕ → Bool)
  | map (self : ℕ) (transformer : ℕ → ℕ)
  | sobre (self : ℕ) (orden : Orden)

inductive Respuesta where
  | nada
  | puntero (p : ℕ)
  | entero (n : ℤ)
  | logico (b : Bool)
  deriving DecidableEq

def Orden.ejecutar (self : ℕ) : Orden → Op Heap Respuesta
  | .add data => do
    let n ← listAdd self data
    pure (.entero n)
  | .addInIndex index data => do
    listAddInIndex self index data
    pure .nada
  | .get index => do
    let p ← listGet self index
    pure (.puntero p)
  | .replace index data => do
    let p ← listReplace self index data
    pure (.puntero p)
  | .remove index => do
    let p ← listRemove self index
    pure (.puntero p)
  | .find condition => do
    let p ← listFind self condition
    pure (.puntero p)
  | .removeByCondition condition => do
    let p ← listRemoveByCondition self condition
    pure (.puntero p)
  | .size => do
    let n ← listSize self
    pure (.entero n)
  | .isEmpty => do
    let b ← listIsEmpty self
    pure (.logico b)
  | .clean => do
    listClean self
    pure .nada
  | .destroy => do
    listDestroy self
    pure .nada
  | .countSatisfying condition => do
    let n ← listCountSatisfying self condition
    pure (.entero n)
  | .allSatisfy condition => do
    let b ← listAllSatisfy self condition
    pure (.logico b)

def Llamada.ejecutar : Llamada → Op Heap Respuesta
  | .create => do
    let p ← listCreate
    pure (.puntero p)
  | .filter self condition => do
    let p ← listFilter self condition
    pure (.puntero p)
  | .map self transformer => do
    let p ← listMap self transformer
    pure (.puntero p)
  | .sobre self orden => orden.ejecutar self

/-! ## The sequences -/

def Orden.respuesta : Orden → List ℕ → Respuesta
  | .add _, xs => .entero xs.length
  | .get index, xs => .puntero (en xs index)
  | .replace index _, xs => .puntero (en xs index)
  | .remove index, xs => .puntero (en xs index)
  | .find condition, xs => .puntero ((xs.find? condition).getD 0)
  | .removeByCondition condition, xs => .puntero ((xs.find? condition).getD 0)
  | .size, xs => .entero xs.length
  | .isEmpty, xs => .logico xs.isEmpty
  | .countSatisfying condition, xs => .entero (xs.filter condition).length
  | .allSatisfy condition, xs => .logico (xs.all condition)
  | .addInIndex _ _, _ => .nada
  | .clean, _ => .nada
  | .destroy, _ => .nada

def Orden.queda : Orden → List ℕ → Option (List ℕ)
  | .add data, xs => some (xs ++ [data])
  | .addInIndex index data, xs =>
    some (if 0 ≤ index ∧ index ≤ xs.length then xs.insertIdx index.toNat data else xs)
  | .replace index data, xs => some (if 0 ≤ index then xs.set index.toNat data else xs)
  | .remove index, xs => some (xs.eraseIdx index.toNat)
  | .removeByCondition condition, xs => some (xs.eraseP condition)
  | .clean, _ => some []
  | .destroy, _ => none
  | .get _, xs => some xs
  | .find _, xs => some xs
  | .size, xs => some xs
  | .isEmpty, xs => some xs
  | .countSatisfying _, xs => some xs
  | .allSatisfy _, xs => some xs

/-- What a list must be for the order to come back. -/
def Orden.Vuelve : Orden → List ℕ → Prop
  | .remove index, xs => xs = [] ∨ 0 ≤ index ∧ index < xs.length
  | _, _ => True

def Llamada.nueva (q : ℕ → Option (List ℕ)) : Llamada → Option (List ℕ)
  | .create => some []
  | .filter self condition => (q self).map (List.filter condition)
  | .map self transformer => (q self).map (List.map transformer)
  | .sobre _ _ => none

/-- A call on the sequences. A new one is under an address that had none. -/
inductive Paso (q : ℕ → Option (List ℕ)) :
    Llamada → Respuesta → (ℕ → Option (List ℕ)) → Prop where
  | nueva {c : Llamada} {p : ℕ} {xs : List ℕ} : c.nueva q = some xs → p ≠ 0 → q p = none →
      Paso q c (.puntero p) (update q p (some xs))
  | sobre {i : ℕ} {o : Orden} {xs : List ℕ} : q i = some xs → o.Vuelve xs →
      Paso q (.sobre i o) (o.respuesta xs) (update q i (o.queda xs))

/-- The lists that a call is about are there, and it is no removal past the end. -/
def Llamada.Vuelve (q : ℕ → Option (List ℕ)) : Llamada → Prop
  | .create => True
  | .filter self _ => q self ≠ none
  | .map self _ => q self ≠ none
  | .sobre self orden => ∃ xs, q self = some xs ∧ orden.Vuelve xs

section Heap
variable {s s' : Heap} {q : ℕ → Option (List ℕ)} {i : ℕ} {xs : List ℕ}

theorem answer {α β : Type} {x : Op Heap α} {f : α → β} {a : α}
    (h : x s = (some a, s')) : (x >>= fun a => pure (f a)) s = (some (f a), s') :=
  Op.bind_some h

theorem Guarda.size (h : Guarda s q) (hq : q i = some xs) :
    listSize i s = (some (xs.length : ℤ), s) := by
  obtain ⟨celdas, l, hrep, hi, -, hcount⟩ := h.abre hq
  rw [← hcount]
  exact answer (hrep.tiene hi).leerLista

theorem Guarda.sinCambio (h : Guarda s q) (hq : q i = some xs) :
    Guarda s (update q i (some xs)) := by
  rwa [← hq, Function.update_eq_self]

theorem Guarda.remove (h : Guarda s q) (hq : q i = some xs) {index : ℤ}
    (hvuelve : xs = [] ∨ 0 ≤ index ∧ index < xs.length) :
    ∃ s', listRemove i index s = (some (en xs index), s') ∧
      Guarda s' (update q i (some (xs.eraseIdx index.toNat))) := by
  obtain ⟨celdas, l, hrep, hi, rfl, -⟩ := h.abre hq
  rw [List.length_map, List.map_eq_nil_iff] at hvuelve
  rcases hvuelve with hnil | ⟨h0, hlt⟩
  · rw [hrep.remove_nil hi hnil, hnil, List.map_nil, List.eraseIdx_nil, en_out (by simp)]
    rw [hnil, List.map_nil] at hq
    exact ⟨s, rfl, h.sinCambio hq⟩
  · obtain ⟨pre, p, post, hcs, rfl⟩ := partir h0 hlt
    obtain ⟨s', hrun, hg⟩ := hrep.remove hi hcs
    have hen := en_append (pre.map (dato s.elements)) (post.map (dato s.elements))
      (dato s.elements p)
    rw [List.length_map] at hen
    refine ⟨s', ?_, ?_⟩
    · rw [hrun, hcs, List.map_append, List.map_cons, hen]
    · have herase : ((celdas i).map (dato s.elements)).eraseIdx pre.length =
          (pre ++ post).map (dato s.elements) := by
        rw [hcs, List.map_append, List.map_cons, List.map_append]
        have hlen : pre.length = (pre.map (dato s.elements)).length := (List.length_map ..).symm
        rw [hlen, List.eraseIdx_append_of_length_le (le_refl _), Nat.sub_self, List.eraseIdx_cons_zero]
      rwa [Int.toNat_natCast, herase]

/-- An order that may come back does, with the answer of the sequence. -/
theorem Orden.correcta (o : Orden) (h : Guarda s q) (hq : q i = some xs) (hvuelve : o.Vuelve xs) :
    ∃ s', o.ejecutar i s = (some (o.respuesta xs), s') ∧ Guarda s' (update q i (o.queda xs)) := by
  obtain ⟨celdas, l, hrep, hi, hxs, hcount⟩ := h.abre hq
  cases o with
  | add data =>
    obtain ⟨s', hrun, hrep'⟩ := hrep.add hi data
    rw [← hxs] at hrep'
    have hlen : ((celdas i).length : ℤ) = xs.length := by rw [hxs, List.length_map]
    rw [hlen] at hrun
    exact ⟨s', answer hrun, _, hrep'⟩
  | addInIndex index data =>
    obtain ⟨s', hrun, hg⟩ := hrep.addInIndex hi index data
    have hlen : (celdas i).length = xs.length := by rw [hxs, List.length_map]
    rw [← hxs, hlen] at hg
    exact ⟨s', answer (f := fun _ => Respuesta.nada) hrun, hg⟩
  | get index =>
    have hrun := hrep.get hi index
    rw [← hxs] at hrun
    exact ⟨s, answer hrun, h.sinCambio hq⟩
  | replace index data =>
    obtain ⟨s', hrun, hg⟩ := hrep.replace hi index data
    rw [← hxs] at hrun hg
    exact ⟨s', answer hrun, hg⟩
  | remove index =>
    obtain ⟨s', hrun, hg⟩ := h.remove hq hvuelve
    exact ⟨s', answer hrun, hg⟩
  | find condition =>
    have hrun := hrep.find hi condition
    rw [← hxs] at hrun
    exact ⟨s, answer hrun, h.sinCambio hq⟩
  | removeByCondition condition =>
    obtain ⟨s', hrun, hg⟩ := hrep.removeByCondition hi condition
    rw [← hxs] at hrun hg
    exact ⟨s', answer hrun, hg⟩
  | size => exact ⟨s, answer (h.size hq), h.sinCambio hq⟩
  | isEmpty =>
    have hempty : xs.isEmpty = decide ((xs.length : ℤ) = 0) := by
      rw [Bool.eq_iff_iff, List.isEmpty_iff, decide_eq_true_iff, Int.natCast_eq_zero,
        List.length_eq_zero_iff]
    refine ⟨s, ?_, h.sinCambio hq⟩
    rw [Orden.respuesta, hempty]
    exact answer (answer (h.size hq))
  | clean =>
    obtain ⟨s', hrun, -, hrep'⟩ := hrep.clean hi
    exact ⟨s', answer (f := fun _ => Respuesta.nada) hrun, _, hrep'⟩
  | destroy =>
    obtain ⟨s', hrun, hg⟩ := hrep.destroy hi
    exact ⟨s', answer (f := fun _ => Respuesta.nada) hrun, hg⟩
  | countSatisfying condition =>
    obtain ⟨s', hrun, hg⟩ := h.countSatisfying hq condition
    exact ⟨s', answer hrun, hg.sinCambio hq⟩
  | allSatisfy condition =>
    obtain ⟨s', hrun, hg⟩ := h.allSatisfy hq condition
    exact ⟨s', answer hrun, hg.sinCambio hq⟩

theorem abort_bind {α β : Type} {x : Op Heap α} {f : α → Op Heap β} (h : (x s).1 = none) :
    ((x >>= f) s).1 = none := by
  rw [Op.bind_none (Prod.ext h rfl)]

theorem iterate_sin_lista (hi : s.lists i = none) (hne : i ≠ s.libre) (closure : ℕ → Op Heap PUnit) :
    (listIterate i closure { s with
      lists := update s.lists s.libre (some ⟨0, 0⟩)
      libre := s.libre + 1 }).1 = none :=
  abort_bind ((Function.update_of_ne hne ..).trans hi)

theorem filter_sin_lista (hi : s.lists i = none) (hne : i ≠ s.libre) (condition : ℕ → Bool) :
    (listFilter i condition s).1 = none := by
  unfold listFilter
  rw [Op.bind_some (listCreate_eq s)]
  exact abort_bind (iterate_sin_lista hi hne _)

theorem map_sin_lista (hi : s.lists i = none) (hne : i ≠ s.libre) (transformer : ℕ → ℕ) :
    (listMap i transformer s).1 = none := by
  unfold listMap
  rw [Op.bind_some (listCreate_eq s)]
  exact abort_bind (iterate_sin_lista hi hne _)

theorem clean_sin_lista (hi : s.lists i = none) : (listClean i s).1 = none := by
  unfold listClean
  rw [Op.get_bind]
  exact abort_bind (abort_bind hi)

theorem Orden.sin_lista (o : Orden) (hi : s.lists i = none) (hne : i ≠ s.libre) :
    (o.ejecutar i s).1 = none := by
  have hleer : (leerLista i s).1 = none := hi
  have hget : ∀ index, (listGetElement i index s).1 = none := fun _ => abort_bind hleer
  have hfind : ∀ condition, (listFindElement i condition s).1 = none := fun _ => abort_bind hleer
  have hcount : ∀ condition, (listCountSatisfying i condition s).1 = none := fun condition =>
    abort_bind (filter_sin_lista hi hne condition)
  cases o with
  | add data =>
    refine abort_bind ?_
    unfold listAdd
    rw [Op.bind_some (listCreateElement_eq data s)]
    exact abort_bind hi
  | addInIndex index data => exact abort_bind (abort_bind hleer)
  | get index => exact abort_bind (abort_bind (hget index))
  | replace index data => exact abort_bind (abort_bind (hget index))
  | remove index => exact abort_bind (abort_bind hleer)
  | find condition => exact abort_bind (abort_bind (hfind condition))
  | removeByCondition condition => exact abort_bind (abort_bind (hfind condition))
  | size => exact abort_bind (abort_bind hleer)
  | isEmpty => exact abort_bind (abort_bind (abort_bind hleer))
  | clean => exact abort_bind (clean_sin_lista hi)
  | destroy => exact abort_bind (abort_bind (clean_sin_lista hi))
  | countSatisfying condition => exact abort_bind (hcount condition)
  | allSatisfy condition => exact abort_bind (abort_bind (hcount condition))

theorem Orden.no_vuelve (o : Orden) (h : Guarda s q) (hq : q i = some xs) (hno : ¬ o.Vuelve xs) :
    (o.ejecutar i s).1 = none := by
  cases o with
  | remove index =>
    obtain ⟨celdas, l, hrep, hi, rfl, -⟩ := h.abre hq
    rw [Orden.Vuelve, not_or, List.map_eq_nil_iff, List.length_map] at hno
    exact abort_bind (hrep.remove_out hi hno.1 hno.2)
  | _ => exact absurd trivial hno

theorem Guarda.lista_none (h : Guarda s q) (hq : q i = none) : s.lists i = none := by
  obtain ⟨celdas, h⟩ := h
  have hi := h.datos i
  rw [hq] at hi
  exact Option.map_eq_none_iff.mp hi.symm

/-- The list that a call is about; `0` for a new one. -/
def Llamada.self : Llamada → ℕ
  | .create => 0
  | .filter self _ => self
  | .map self _ => self
  | .sobre self _ => self

/-- A call on the heap is one on the sequences. -/
theorem Llamada.correcta (c : Llamada) (h : Guarda s q) (hvuelve : c.Vuelve q) :
    ∃ r q' s', c.ejecutar s = (some r, s') ∧ Paso q c r q' ∧ Guarda s' q' := by
  obtain ⟨celdas, hrep⟩ := id h
  cases c with
  | create =>
    exact ⟨_, _, _, answer (f := Respuesta.puntero) (listCreate_eq s),
      .nueva rfl hrep.fresca.1 hrep.fresca.2, _, hrep.create⟩
  | filter self condition =>
    obtain ⟨xs, hq⟩ := Option.ne_none_iff_exists'.mp hvuelve
    obtain ⟨celdas, l, hrep, hi, rfl, -⟩ := h.abre hq
    obtain ⟨s', hrun, hg⟩ := hrep.filter hi condition
    exact ⟨_, _, s', answer (f := Respuesta.puntero) hrun,
      .nueva (congrArg (Option.map (List.filter condition)) hq) hrep.fresca.1 hrep.fresca.2, hg⟩
  | map self transformer =>
    obtain ⟨xs, hq⟩ := Option.ne_none_iff_exists'.mp hvuelve
    obtain ⟨celdas, l, hrep, hi, rfl, -⟩ := h.abre hq
    obtain ⟨s', hrun, hg⟩ := hrep.map hi transformer
    exact ⟨_, _, s', answer (f := Respuesta.puntero) hrun,
      .nueva (congrArg (Option.map (List.map transformer)) hq) hrep.fresca.1 hrep.fresca.2, hg⟩
  | sobre self orden =>
    obtain ⟨xs, hq, hvuelve⟩ := hvuelve
    obtain ⟨s', hrun, hg⟩ := orden.correcta h hq hvuelve
    exact ⟨_, _, s', hrun, .sobre hq hvuelve, hg⟩

theorem Llamada.no_vuelve (c : Llamada) (h : Guarda s q) (hself : c.self < s.libre)
    (hno : ¬ c.Vuelve q) : (c.ejecutar s).1 = none := by
  cases c with
  | create => exact absurd trivial hno
  | filter self condition =>
    exact abort_bind (filter_sin_lista (h.lista_none (not_not.mp hno)) hself.ne condition)
  | map self transformer =>
    exact abort_bind (map_sin_lista (h.lista_none (not_not.mp hno)) hself.ne transformer)
  | sobre self orden =>
    cases hq : q self with
    | none => exact orden.sin_lista (h.lista_none hq) hself.ne
    | some xs => exact orden.no_vuelve h hq fun hvuelve => hno ⟨xs, hq, hvuelve⟩

end Heap

theorem guarda_vacio : Guarda Heap.vacio fun _ => none :=
  ⟨fun _ => [], { chain := fun _ => .nil, disjoint := fun _ _ _ _ hp => absurd hp List.not_mem_nil },
    fun p => by simp [Heap.vacio], fun i l hi => by simp [Heap.vacio] at hi, fun _ => rfl,
    fun _ _ => ⟨rfl, rfl⟩, rfl, Nat.one_pos⟩

/-- A call that comes back, through pointers that have been given. -/
def Llama (s : Heap) (e : Llamada × Respuesta) (s' : Heap) : Prop :=
  e.1.self < s.libre ∧ e.1.ejecutar s = (some e.2, s')

theorem Llama.of {s : Heap} {c : Llamada} {r : Respuesta} (hself : c.self < s.libre)
    (h : (c.ejecutar s).1 = some r) : Llama s (c, r) (c.ejecutar s).2 := ⟨hself, Prod.ext h rfl⟩

/-- What is called on the lists of the heap is what happens to the sequences, the heap has the
elements of these and no others, and the calls that come back are those that the sequences allow. -/
theorem listas_run {es : List (Llamada × Respuesta)} {s : Heap} (h : Run Llama Heap.vacio es s) :
    ∃ q, Run (fun q e q' => Paso q e.1 e.2 q') (fun _ => none) es q ∧ Guarda s q ∧
      ∀ c : Llamada, c.self < s.libre → ((∃ r, (c.ejecutar s).1 = some r) ↔ c.Vuelve q) := by
  have hrun : ∃ q, Run (fun q e q' => Paso q e.1 e.2 q') (fun _ => none) es q ∧ Guarda s q := by
    refine h.invariant_history (I := fun s es => ∃ q,
      Run (fun q e q' => Paso q e.1 e.2 q') (fun _ => none) es q ∧ Guarda s q) ?_
      ⟨_, .nil _, guarda_vacio⟩
    rintro s ⟨c, r⟩ s' es ⟨q, hq, hg⟩ ⟨hself, hc⟩
    have hvuelve : c.Vuelve q := by
      by_contra hno
      have hnone := c.no_vuelve hg hself hno
      rw [hc] at hnone
      cases hnone
    obtain ⟨r', q', s'', hc', hpaso, hg'⟩ := c.correcta hg hvuelve
    obtain ⟨rfl, rfl⟩ := Op.some_inj (hc'.symm.trans hc)
    exact ⟨q', hq.append (.cons hpaso (.nil q')), hg'⟩
  obtain ⟨q, hq, hg⟩ := hrun
  refine ⟨q, hq, hg, fun c hself => ⟨?_, fun hvuelve => ?_⟩⟩
  · rintro ⟨r, hr⟩
    by_contra hno
    rw [c.no_vuelve hg hself hno] at hr
    cases hr
  · obtain ⟨r, q', s', hc, -⟩ := c.correcta hg hvuelve
    exact ⟨r, by rw [hc]⟩

/-- A list from which the first of its two elements is removed. -/
theorem listas_dos : ∃ s q, Run (fun q e q' => Paso q e.1 e.2 q') (fun _ => none)
      [(.create, .puntero 1), (.sobre 1 (.add 7), .entero 0), (.sobre 1 (.add 8), .entero 1),
        (.sobre 1 (.remove 0), .puntero 7), (.sobre 1 .size, .entero 1)] q ∧ Guarda s q := by
  obtain ⟨q, hq, hg, -⟩ := @listas_run [(.create, .puntero 1), (.sobre 1 (.add 7), .entero 0),
      (.sobre 1 (.add 8), .entero 1), (.sobre 1 (.remove 0), .puntero 7), (.sobre 1 .size, .entero 1)]
    _ (.cons (.of (by decide) rfl) (.cons (.of (by decide) rfl)
    (.cons (.of (by decide) rfl) (.cons (.of (by decide) rfl) (.cons (.of (by decide) rfl)
      (.nil _))))))
  exact ⟨_, q, hq, hg⟩

end TpSo.Commons.Listas
