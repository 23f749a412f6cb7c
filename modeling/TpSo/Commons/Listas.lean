import Mathlib.Data.Finset.Card
import TpSo.Base.Chain
import TpSo.Base.Op
import TpSo.Base.Run

/-!
# The lists

The elements of all the lists of a process are in one heap, linked by pointers; `0` is `NULL`. What
follows a pointer to memory that is not allocated does not come back, and a loop that goes on for
longer than there have been elements never ends.
-/

namespace TpSo.Commons.Listas

/-- `t_link_element`; the data are pointers. -/
structure LinkElement where
  data : ℕ
  next : ℕ

/-- `t_list`. -/
structure TList where
  head : ℕ
  elementsCount : ℤ

/-- The elements and the lists that are allocated. The addresses from `libre` on have not been given
yet. -/
structure Heap where
  elements : ℕ → Option LinkElement
  lists : ℕ → Option TList
  libre : ℕ

def Heap.vacio : Heap := ⟨fun _ => none, fun _ => none, 1⟩

open Function (update)

def leerElemento (p : ℕ) : Op Heap LinkElement := fun s => (s.elements p, s)

def leerLista (self : ℕ) : Op Heap TList := fun s => (s.lists self, s)

def escribirElemento (p : ℕ) (e : LinkElement) : Op Heap PUnit :=
  Op.modify fun s => { s with elements := update s.elements p (some e) }

def escribirLista (self : ℕ) (l : TList) : Op Heap PUnit :=
  Op.modify fun s => { s with lists := update s.lists self (some l) }

def liberarElemento (p : ℕ) : Op Heap PUnit :=
  Op.modify fun s => { s with elements := update s.elements p none }

def listLinkElement (previous next : ℕ) : Op Heap PUnit :=
  if previous = 0 then pure ⟨⟩
  else do
    let e ← leerElemento previous
    escribirElemento previous { e with next }

def listCreateElement (data : ℕ) : Op Heap ℕ := fun s =>
  (some s.libre, { s with
    elements := update s.elements s.libre (some ⟨data, 0⟩)
    libre := s.libre + 1 })

def avanzar : ℕ → ℕ → Op Heap ℕ
  | 0, element => pure element
  | n + 1, element => do
    let e ← leerElemento element
    avanzar n e.next

def listGetElement (self : ℕ) (index : ℤ) : Op Heap ℕ := do
  let l ← leerLista self
  if index < l.elementsCount ∧ 0 ≤ index then avanzar index.toNat l.head else pure 0

/-- The loop of `list_find_element`, for so many rounds. -/
def buscar (condition : ℕ → Bool) : ℕ → ℕ → ℤ → Op Heap (ℕ × ℤ)
  | 0, _, _ => Op.abort
  | rondas + 1, element, position =>
    if element = 0 then pure (0, position)
    else do
      let e ← leerElemento element
      if condition e.data then pure (element, position)
      else buscar condition rondas e.next (position + 1)

/-- The element and the index. -/
def listFindElement (self : ℕ) (condition : ℕ → Bool) : Op Heap (ℕ × ℤ) := do
  let l ← leerLista self
  let rondas ← Op.get fun s => s.libre + 1
  buscar condition rondas l.head 0

def listCreate : Op Heap ℕ := fun s =>
  (some s.libre, { s with lists := update s.lists s.libre (some ⟨0, 0⟩), libre := s.libre + 1 })

/-- `self->elements_count += n`; the number before it. -/
def contar (self : ℕ) (n : ℤ) : Op Heap ℤ := do
  let l ← leerLista self
  escribirLista self { l with elementsCount := l.elementsCount + n }
  pure l.elementsCount

def enlazarAlFinal (self : ℕ) (l : TList) (newElement : ℕ) : Op Heap PUnit :=
  if l.elementsCount = 0 then escribirLista self { l with head := newElement }
  else do
    let last ← listGetElement self (l.elementsCount - 1)
    listLinkElement last newElement

def listAdd (self data : ℕ) : Op Heap ℤ := do
  let newElement ← listCreateElement data
  let l ← leerLista self
  enlazarAlFinal self l newElement
  contar self 1

def listGet (self : ℕ) (index : ℤ) : Op Heap ℕ := do
  let element ← listGetElement self index
  if element = 0 then pure 0
  else do
    let e ← leerElemento element
    pure e.data

def enlazarEn (self : ℕ) (l : TList) (index : ℤ) (newElement : ℕ) : Op Heap PUnit :=
  if index = 0 then do
    listLinkElement newElement l.head
    escribirLista self { l with head := newElement }
  else do
    let next ← listGetElement self index
    let previous ← listGetElement self (index - 1)
    listLinkElement previous newElement
    listLinkElement newElement next

def listAddInIndex (self : ℕ) (index : ℤ) (data : ℕ) : Op Heap PUnit := do
  let l ← leerLista self
  if index ≤ l.elementsCount ∧ 0 ≤ index then do
    let newElement ← listCreateElement data
    enlazarEn self l index newElement
    let _ ← contar self 1
    pure ⟨⟩
  else pure ⟨⟩

def listReplace (self : ℕ) (index : ℤ) (data : ℕ) : Op Heap ℕ := do
  let element ← listGetElement self index
  if element = 0 then pure 0
  else do
    let e ← leerElemento element
    escribirElemento element { e with data }
    pure e.data

def listFind (self : ℕ) (condition : ℕ → Bool) : Op Heap ℕ := do
  let (element, _) ← listFindElement self condition
  if element = 0 then pure 0
  else do
    let e ← leerElemento element
    pure e.data

def desenlazar (self : ℕ) (l : TList) (index : ℤ) (next : ℕ) : Op Heap PUnit :=
  if index = 0 then escribirLista self { l with head := next }
  else do
    let previous ← listGetElement self (index - 1)
    listLinkElement previous next

/-- Past the end `list_get_element` gives a `NULL`, which is read. -/
def listRemove (self : ℕ) (index : ℤ) : Op Heap ℕ := do
  let l ← leerLista self
  if l.head = 0 then pure 0
  else do
    let auxElement ← listGetElement self index
    let e ← leerElemento auxElement
    desenlazar self l index e.next
    let _ ← contar self (-1)
    liberarElemento auxElement
    pure e.data

def listRemoveByCondition (self : ℕ) (condition : ℕ → Bool) : Op Heap ℕ := do
  let (element, index) ← listFindElement self condition
  if element = 0 then pure 0 else listRemove self index

def listSize (self : ℕ) : Op Heap ℤ := do
  let l ← leerLista self
  pure l.elementsCount

/-- The loop of `list_iterate`: the next element is read after the closure. -/
def iterar (closure : ℕ → Op Heap PUnit) : ℕ → ℕ → Op Heap PUnit
  | 0, _ => Op.abort
  | rondas + 1, element =>
    if element = 0 then pure ⟨⟩
    else do
      let e ← leerElemento element
      closure e.data
      let e ← leerElemento element
      iterar closure rondas e.next

def listIterate (self : ℕ) (closure : ℕ → Op Heap PUnit) : Op Heap PUnit := do
  let l ← leerLista self
  let rondas ← Op.get fun s => s.libre + 1
  iterar closure rondas l.head

def vaciar (self : ℕ) : ℕ → Op Heap PUnit
  | 0 => Op.abort
  | rondas + 1 => do
    let l ← leerLista self
    if l.head = 0 then pure ⟨⟩
    else do
      let e ← leerElemento l.head
      escribirLista self { l with head := e.next }
      liberarElemento l.head
      vaciar self rondas

def listClean (self : ℕ) : Op Heap PUnit := do
  let rondas ← Op.get fun s => s.libre + 1
  vaciar self rondas
  let l ← leerLista self
  escribirLista self { l with elementsCount := 0 }

def listDestroy (self : ℕ) : Op Heap PUnit := do
  listClean self
  Op.modify fun s => { s with lists := update s.lists self none }

def addIfApply (filtered : ℕ) (condition : ℕ → Bool) (element : ℕ) : Op Heap PUnit :=
  if condition element then do
    let _ ← listAdd filtered element
    pure ⟨⟩
  else pure ⟨⟩

def listFilter (self : ℕ) (condition : ℕ → Bool) : Op Heap ℕ := do
  let filtered ← listCreate
  listIterate self (addIfApply filtered condition)
  pure filtered

def addAfterTransform (mapped : ℕ) (transformer : ℕ → ℕ) (element : ℕ) : Op Heap PUnit := do
  let _ ← listAdd mapped (transformer element)
  pure ⟨⟩

def listMap (self : ℕ) (transformer : ℕ → ℕ) : Op Heap ℕ := do
  let mapped ← listCreate
  listIterate self (addAfterTransform mapped transformer)
  pure mapped

def listIsEmpty (self : ℕ) : Op Heap Bool := do
  let size ← listSize self
  pure (size = 0)

def listCountSatisfying (self : ℕ) (condition : ℕ → Bool) : Op Heap ℤ := do
  let satisfying ← listFilter self condition
  let l ← leerLista satisfying
  listDestroy satisfying
  pure l.elementsCount

def listAllSatisfy (self : ℕ) (condition : ℕ → Bool) : Op Heap Bool := do
  let count ← listCountSatisfying self condition
  let l ← leerLista self
  pure (count = l.elementsCount)

/-! ## What is in the heap -/

/-- The pointers of the elements; nothing follows what is not allocated. -/
def siguiente (elements : ℕ → Option LinkElement) (p : ℕ) : ℕ :=
  (elements p).elim 0 LinkElement.next

def dato (elements : ℕ → Option LinkElement) (p : ℕ) : ℕ := (elements p).elim 0 LinkElement.data

/-- The first element of a list; `0` where there is no list. -/
def cabeza (lists : ℕ → Option TList) (i : ℕ) : ℕ := (lists i).elim 0 TList.head

section Update
variable {elements : ℕ → Option LinkElement} {lists : ℕ → Option TList} {p : ℕ} {e : LinkElement}
  {l : TList}

@[simp] theorem siguiente_update :
    siguiente (update elements p (some e)) = update (siguiente elements) p e.next := by
  funext x
  by_cases hx : x = p
  · subst hx
    simp [siguiente]
  · simp [siguiente, hx]

@[simp] theorem dato_update :
    dato (update elements p (some e)) = update (dato elements) p e.data := by
  funext x
  by_cases hx : x = p
  · subst hx
    simp [dato]
  · simp [dato, hx]

@[simp] theorem siguiente_update_none :
    siguiente (update elements p none) = update (siguiente elements) p 0 := by
  funext x
  by_cases hx : x = p
  · subst hx
    simp [siguiente]
  · simp [siguiente, hx]

@[simp] theorem cabeza_update :
    cabeza (update lists p (some l)) = update (cabeza lists) p l.head := by
  funext x
  by_cases hx : x = p
  · subst hx
    simp [cabeza]
  · simp [cabeza, hx]

theorem eq_some_of_ne_none (h : elements p ≠ none) :
    elements p = some ⟨dato elements p, siguiente elements p⟩ := by
  obtain ⟨e, he⟩ := Option.ne_none_iff_exists'.mp h
  rw [he, dato, siguiente, he]
  rfl

end Update

/-- The elements of a list are these, all of them allocated. -/
structure Tiene (s : Heap) (i : ℕ) (l : TList) (cs : List ℕ) : Prop where
  lista : s.lists i = some l
  chain : Chain (siguiente s.elements) 0 l.head cs
  elementsCount : l.elementsCount = cs.length
  vivos : ∀ p ∈ cs, s.elements p ≠ none

/-- The heap holds these lists of pointers, each in elements of its own, and no other element. -/
structure Representa (s : Heap) (q : ℕ → Option (List ℕ)) (celdas : ℕ → List ℕ) : Prop where
  fat : Fat (siguiente s.elements) 0 (cabeza s.lists) celdas
  vivos : ∀ p, s.elements p ≠ none ↔ ∃ i, p ∈ celdas i
  elementsCount : ∀ i l, s.lists i = some l → l.elementsCount = (celdas i).length
  datos : ∀ i, q i = (s.lists i).map fun _ => (celdas i).map (dato s.elements)
  libre : ∀ p, s.libre ≤ p → s.elements p = none ∧ s.lists p = none
  null : s.lists 0 = none ∧ 0 < s.libre

def Guarda (s : Heap) (q : ℕ → Option (List ℕ)) : Prop := ∃ celdas, Representa s q celdas

section Heap
variable {s s' : Heap} {q : ℕ → Option (List ℕ)} {celdas : ℕ → List ℕ} {i p : ℕ} {l l' : TList}
  {cs pre post : List ℕ}

theorem Representa.tiene (h : Representa s q celdas) (hi : s.lists i = some l) :
    Tiene s i l (celdas i) where
  lista := hi
  chain := by
    have hchain := h.fat.chain i
    rwa [cabeza, hi] at hchain
  elementsCount := h.elementsCount i l hi
  vivos p hp := (h.vivos p).mpr ⟨i, hp⟩

theorem Tiene.congr (h : Tiene s i l cs) (hlista : s'.lists i = s.lists i)
    (hsame : ∀ p ∈ cs, s'.elements p = s.elements p) : Tiene s' i l cs where
  lista := hlista.trans h.lista
  chain := h.chain.congr fun p hp => by rw [siguiente, hsame p hp, siguiente]
  elementsCount := h.elementsCount
  vivos p hp := hsame p hp ▸ h.vivos p hp

/-- Another content for a list: elements that were its own or are new, and the rest as it was. -/
theorem Representa.set (h : Representa s q celdas) (hi : s.lists i ≠ none)
    (htiene : Tiene s' i l' cs) (hlists : s'.lists = update s.lists i (some l'))
    (hcs : ∀ p ∈ cs, p ∈ celdas i ∨ s.elements p = none)
    (hsame : ∀ p, p ∉ celdas i → p ∉ cs → s'.elements p = s.elements p)
    (hgone : ∀ p ∈ celdas i, p ∉ cs → s'.elements p = none)
    (hlibre : ∀ p, s'.libre ≤ p → s.libre ≤ p ∧ p ∉ cs) :
    Representa s' (update q i (some (cs.map (dato s'.elements)))) (update celdas i cs) := by
  have hajena : ∀ j, j ≠ i → ∀ p ∈ celdas j, s'.elements p = s.elements p := by
    intro j hj p hp
    refine hsame p (h.fat.disjoint j i hj p hp) fun hmem => ?_
    rcases hcs p hmem with hown | hnone
    · exact h.fat.disjoint j i hj p hp hown
    · exact (h.vivos p).mpr ⟨j, hp⟩ hnone
  refine ⟨?_, fun p => ?_, fun j l hj => ?_, fun j => ?_, fun p hp => ?_, ?_⟩
  · rw [hlists, cabeza_update]
    refine h.fat.set htiene.chain (fun p hp => ?_) fun j hj p hp => ?_
    · refine (hcs p hp).imp id fun hnone j hj => (h.vivos p).mpr ⟨j, hj⟩ hnone
    · rw [siguiente, hajena j hj p hp, siguiente]
  · constructor
    · intro hp
      by_cases hcs' : p ∈ cs
      · exact ⟨i, by rwa [Function.update_self]⟩
      · have hcelda : p ∉ celdas i := fun hmem => hp (hgone p hmem hcs')
        rw [hsame p hcelda hcs'] at hp
        obtain ⟨j, hj⟩ := (h.vivos p).mp hp
        have hji : j ≠ i := fun he => hcelda (he ▸ hj)
        exact ⟨j, by rwa [Function.update_of_ne hji]⟩
    · rintro ⟨j, hj⟩
      by_cases hji : j = i
      · rw [hji, Function.update_self] at hj
        exact htiene.vivos p hj
      · rw [Function.update_of_ne hji] at hj
        rw [hajena j hji p hj]
        exact (h.vivos p).mpr ⟨j, hj⟩
  · by_cases hji : j = i
    · subst hji
      rw [hlists, Function.update_self, Option.some.injEq] at hj
      rw [Function.update_self, ← hj]
      exact htiene.elementsCount
    · rw [hlists, Function.update_of_ne hji] at hj
      rw [Function.update_of_ne hji]
      exact h.elementsCount j l hj
  · by_cases hji : j = i
    · subst hji
      rw [hlists, Function.update_self, Function.update_self, Function.update_self]
      rfl
    · rw [hlists, Function.update_of_ne hji, Function.update_of_ne hji, Function.update_of_ne hji,
        h.datos j, List.map_congr_left fun p hp => by rw [dato, ← hajena j hji p hp, ← dato]]
  · obtain ⟨hle, hcs'⟩ := hlibre p hp
    obtain ⟨hnone, hlista⟩ := h.libre p hle
    have hcelda : p ∉ celdas i := fun hmem => (h.vivos p).mpr ⟨i, hmem⟩ hnone
    have hpi : p ≠ i := fun he => hi (he ▸ hlista)
    exact ⟨(hsame p hcelda hcs').trans hnone, by rw [hlists, Function.update_of_ne hpi, hlista]⟩
  · have hi0 : i ≠ 0 := fun he => hi (he ▸ h.null.1)
    refine ⟨by rw [hlists, Function.update_of_ne (Ne.symm hi0), h.null.1], ?_⟩
    by_contra hzero
    have hle := (hlibre 0 (by omega)).1
    have hpos := h.null.2
    omega

/-! ## The elements of a list -/

theorem avanzar_eq {a : ℕ} (h : Chain (siguiente s.elements) 0 a (pre ++ p :: post))
    (hpre : ∀ x ∈ pre, s.elements x ≠ none) : avanzar pre.length a s = (some p, s) := by
  induction pre generalizing a with
  | nil => rw [h.head_eq]; rfl
  | cons x pre ih =>
    have hx := eq_some_of_ne_none (hpre x List.mem_cons_self)
    rw [h.head_eq, List.length_cons, avanzar]
    have hleer : leerElemento x s = (some ⟨dato s.elements x, siguiente s.elements x⟩, s) := by
      rw [leerElemento, hx]
    rw [Op.bind_some hleer]
    exact ih h.tail fun y hy => hpre y (List.mem_cons_of_mem x hy)

theorem Tiene.leerLista (h : Tiene s i l cs) : leerLista i s = (some l, s) := by
  rw [Listas.leerLista, h.lista]

theorem Tiene.leerElemento (h : Tiene s i l cs) (hp : p ∈ cs) :
    leerElemento p s = (some ⟨dato s.elements p, siguiente s.elements p⟩, s) := by
  rw [Listas.leerElemento, eq_some_of_ne_none (h.vivos p hp)]

theorem Tiene.ne_null (h : Tiene s i l cs) (hp : p ∈ cs) : p ≠ 0 := fun he =>
  h.chain.stop_not_mem (he ▸ hp)

theorem Tiene.getElement (h : Tiene s i l (pre ++ p :: post)) (index : ℤ)
    (hindex : index = pre.length) : listGetElement i index s = (some p, s) := by
  have hcount := h.elementsCount
  rw [List.length_append, List.length_cons] at hcount
  unfold listGetElement
  rw [Op.bind_some h.leerLista, if_pos (by omega), hindex, Int.toNat_natCast]
  exact avanzar_eq h.chain fun x hx => h.vivos x (List.mem_append_left _ hx)

theorem Tiene.getElement_out (h : Tiene s i l cs) {index : ℤ}
    (hindex : ¬ (0 ≤ index ∧ index < cs.length)) : listGetElement i index s = (some 0, s) := by
  have hcount := h.elementsCount
  unfold listGetElement
  rw [Op.bind_some h.leerLista, if_neg (by omega)]
  rfl

/-! ## What each function does -/

theorem listCreateElement_eq (d : ℕ) (s : Heap) : listCreateElement d s = (some s.libre, { s with
    elements := update s.elements s.libre (some ⟨d, 0⟩)
    libre := s.libre + 1 }) := rfl

theorem contar_eq {n : ℤ} {elements : ℕ → Option LinkElement} {lists : ℕ → Option TList} {libre : ℕ}
    (hi : lists i = some l) : contar i n ⟨elements, lists, libre⟩ = (some l.elementsCount,
      ⟨elements, update lists i (some ⟨l.head, l.elementsCount + n⟩), libre⟩) := by
  have hleer : leerLista i ⟨elements, lists, libre⟩ = (some l, ⟨elements, lists, libre⟩) :=
    Prod.ext hi rfl
  rw [contar, Op.bind_some hleer]
  rfl

theorem contar_update {n : ℤ} {elements : ℕ → Option LinkElement} {lists : ℕ → Option TList}
    {libre : ℕ} : contar i n ⟨elements, update lists i (some l), libre⟩ = (some l.elementsCount,
      ⟨elements, update lists i (some ⟨l.head, l.elementsCount + n⟩), libre⟩) := by
  rw [contar_eq (Function.update_self i _ lists), Function.update_idem]

theorem listLinkElement_eq {e : LinkElement} {next : ℕ} (hp : p ≠ 0) (he : s.elements p = some e) :
    listLinkElement p next s = (some ⟨⟩, { s with
      elements := update s.elements p (some ⟨e.data, next⟩) }) := by
  have hleer : leerElemento p s = (some e, s) := by rw [leerElemento, he]
  rw [listLinkElement, if_neg hp, Op.bind_some hleer]
  rfl

theorem Representa.nuevo (h : Representa s q celdas) :
    s.elements s.libre = none ∧ s.libre ≠ 0 ∧ ∀ i, s.libre ∉ celdas i := by
  have hnone := (h.libre s.libre (le_refl _)).1
  have hpos := h.null.2
  exact ⟨hnone, by omega, fun i hi => (h.vivos s.libre).mpr ⟨i, hi⟩ hnone⟩

theorem Representa.contenido (h : Representa s q celdas) (hi : s.lists i = some l) :
    q i = some ((celdas i).map (dato s.elements)) := by
  rw [h.datos i, hi]
  rfl

theorem Representa.igual (h : Representa s q celdas) (hi : s.lists i = some l) :
    update q i (some ((celdas i).map (dato s.elements))) = q := by
  rw [← h.contenido hi, Function.update_eq_self]

theorem Tiene.conNuevo (h : Tiene s i l cs) (hnone : s.elements s.libre = none) (d : ℕ) :
    Tiene { s with
      elements := update s.elements s.libre (some ⟨d, 0⟩)
      libre := s.libre + 1 } i l cs := by
  refine h.congr rfl fun p hp => Function.update_of_ne ?_ _ _
  rintro rfl
  exact h.vivos _ hp hnone

/-- The end of an insertion: the new element is among those of the list, and the rest of the heap is
as it was. -/
theorem Representa.inserta (h : Representa s q celdas) (hi : s.lists i = some l) {d : ℕ} (hd : ℕ)
    (elements : ℕ → Option LinkElement) (pre post : List ℕ) (hcs : celdas i = pre ++ post)
    (hchain : Chain (siguiente elements) 0 hd (pre ++ s.libre :: post))
    (hnew : ∃ next, elements s.libre = some ⟨d, next⟩)
    (hold : ∀ p ∈ celdas i, ∃ next, elements p = some ⟨dato s.elements p, next⟩)
    (hsame : ∀ p, p ∉ celdas i → p ≠ s.libre → elements p = s.elements p) :
    Representa ⟨elements, update s.lists i (some ⟨hd, l.elementsCount + 1⟩), s.libre + 1⟩
      (update q i (some (pre.map (dato s.elements) ++ d :: post.map (dato s.elements))))
      (update celdas i (pre ++ s.libre :: post)) := by
  obtain ⟨hnone, hnull, hnueva⟩ := h.nuevo
  have hdato : ∀ p ∈ celdas i, dato elements p = dato s.elements p := by
    intro p hp
    obtain ⟨next, hp⟩ := hold p hp
    rw [dato, hp]
    rfl
  have hdatos : (pre ++ s.libre :: post).map (dato elements) =
      pre.map (dato s.elements) ++ d :: post.map (dato s.elements) := by
    obtain ⟨next, hnew⟩ := hnew
    have hd : dato elements s.libre = d := by rw [dato, hnew]; rfl
    rw [List.map_append, List.map_cons, hd,
      List.map_congr_left fun p hp => hdato p (hcs ▸ List.mem_append_left post hp),
      List.map_congr_left fun p hp => hdato p (hcs ▸ List.mem_append_right pre hp)]
  have hcount := (h.tiene hi).elementsCount
  rw [hcs, List.length_append] at hcount
  rw [← hdatos]
  have hmem : ∀ p, p ∈ pre ++ s.libre :: post ↔ p = s.libre ∨ p ∈ celdas i := by
    intro p
    rw [hcs, List.mem_append, List.mem_cons, List.mem_append]
    tauto
  refine h.set (by rw [hi]; simp)
    ⟨Function.update_self i _ s.lists, hchain, ?_, fun p hp => ?_⟩ rfl (fun p hp => ?_)
    (fun p hown hne => ?_) (fun p hown hne => ?_) fun p hp => ?_
  · rw [List.length_append, List.length_cons]
    change l.elementsCount + 1 = _
    omega
  · rcases (hmem p).mp hp with rfl | hown
    · obtain ⟨next, hnew⟩ := hnew
      simp [hnew]
    · obtain ⟨next, hp⟩ := hold p hown
      simp [hp]
  · rcases (hmem p).mp hp with rfl | hown
    · exact .inr hnone
    · exact .inl hown
  · exact hsame p hown fun he => hne ((hmem p).mpr (.inl he))
  · exact absurd ((hmem p).mpr (.inr hown)) hne
  · have hle : s.libre + 1 ≤ p := hp
    refine ⟨by omega, fun hmem' => ?_⟩
    rcases (hmem p).mp hmem' with rfl | hown
    · omega
    · exact (h.vivos p).mpr ⟨i, hown⟩ (h.libre p (by omega)).1

theorem Representa.add (h : Representa s q celdas) (hi : s.lists i = some l) (d : ℕ) :
    ∃ s', listAdd i d s = (some ((celdas i).length : ℤ), s') ∧
      Representa s' (update q i (some ((celdas i).map (dato s.elements) ++ [d])))
        (update celdas i (celdas i ++ [s.libre])) := by
  obtain ⟨hnone, hnull, hnueva⟩ := h.nuevo
  have ht := h.tiene hi
  have ht₁ := ht.conNuevo hnone d
  unfold listAdd
  rw [Op.bind_some (listCreateElement_eq d s), Op.bind_some ht₁.leerLista]
  rcases List.eq_nil_or_concat' (celdas i) with hnil | ⟨pre, last, hcons⟩
  · have hzero : l.elementsCount = 0 := by rw [ht.elementsCount, hnil]; rfl
    have hlink : enlazarAlFinal i l s.libre { s with
        elements := update s.elements s.libre (some ⟨d, 0⟩), libre := s.libre + 1 } =
          (some ⟨⟩, ⟨update s.elements s.libre (some ⟨d, 0⟩),
            update s.lists i (some ⟨s.libre, l.elementsCount⟩), s.libre + 1⟩) := by
      rw [enlazarAlFinal, if_pos hzero]
      rfl
    rw [Op.bind_some hlink, contar_update]
    have hfin := h.inserta hi (d := d) s.libre (update s.elements s.libre (some ⟨d, 0⟩)) [] [] hnil
      (by rw [siguiente_update]; exact Chain.single hnull) ⟨0, Function.update_self _ _ _⟩
      (by simp [hnil]) (fun p _ hp => Function.update_of_ne hp _ _)
    refine ⟨_, Prod.ext (congrArg some ht.elementsCount) rfl, ?_⟩
    rw [hnil]
    exact hfin
  · have hpos : l.elementsCount ≠ 0 := by
      rw [ht.elementsCount, hcons, List.length_append, List.length_singleton]
      omega
    have hmem : last ∈ celdas i := by rw [hcons]; simp
    have hne : last ≠ s.libre := fun he => hnueva i (he ▸ hmem)
    have hget := (hcons ▸ ht₁).getElement (l.elementsCount - 1)
      (by rw [ht.elementsCount, hcons]; simp)
    have hlast : update s.elements s.libre (some ⟨d, 0⟩) last =
        some ⟨dato s.elements last, siguiente s.elements last⟩ := by
      rw [Function.update_of_ne hne, eq_some_of_ne_none (ht.vivos last hmem)]
    have hlink : enlazarAlFinal i l s.libre { s with
        elements := update s.elements s.libre (some ⟨d, 0⟩), libre := s.libre + 1 } =
          (some ⟨⟩, ⟨update (update s.elements s.libre (some ⟨d, 0⟩)) last
            (some ⟨dato s.elements last, s.libre⟩), s.lists, s.libre + 1⟩) := by
      rw [enlazarAlFinal, if_neg hpos, Op.bind_some hget, listLinkElement_eq (ht.ne_null hmem) hlast]
    rw [Op.bind_some hlink, contar_eq hi]
    have hchain := ht.chain
    rw [hcons] at hchain
    have hfin := h.inserta hi (d := d) l.head (update (update s.elements s.libre (some ⟨d, 0⟩)) last
        (some ⟨dato s.elements last, s.libre⟩)) (pre ++ [last]) [] (by rw [hcons]; simp)
      (by
        rw [siguiente_update, siguiente_update, Function.update_comm (Ne.symm hne),
          List.append_assoc]
        exact hchain.snoc hnull (hcons ▸ hnueva i))
      ⟨0, by rw [Function.update_of_ne (Ne.symm hne), Function.update_self]⟩
      (fun p hp => by
        by_cases hpl : p = last
        · exact ⟨_, by rw [hpl, Function.update_self]⟩
        · have hpn : p ≠ s.libre := fun he => hnueva i (he ▸ hp)
          exact ⟨_, by rw [Function.update_of_ne hpl, Function.update_of_ne hpn,
            eq_some_of_ne_none (ht.vivos p hp)]⟩)
      (fun p hp hpn => by
        have hpl : p ≠ last := fun he => hp (he ▸ hmem)
        rw [Function.update_of_ne hpl, Function.update_of_ne hpn])
    refine ⟨_, Prod.ext (congrArg some ht.elementsCount) rfl, ?_⟩
    rw [hcons]
    exact hfin

theorem insertIdx_append {α : Type} (xs ys : List α) (a : α) :
    (xs ++ ys).insertIdx xs.length a = xs ++ a :: ys := by
  induction xs with
  | nil => rfl
  | cons x xs ih => rw [List.cons_append, List.length_cons, List.insertIdx_succ_cons, ih]; rfl

/-- An insertion at a place, with the list counted afterwards. -/
theorem Representa.enlazarEn (h : Representa s q celdas) (hi : s.lists i = some l) (d : ℕ)
    (hcs : celdas i = pre ++ post) : ∃ s',
      (enlazarEn i l pre.length s.libre >>= fun _ => contar i 1) { s with
        elements := update s.elements s.libre (some ⟨d, 0⟩), libre := s.libre + 1 } =
          (some l.elementsCount, s') ∧
      Representa s' (update q i (some (pre.map (dato s.elements) ++ d :: post.map (dato s.elements))))
        (update celdas i (pre ++ s.libre :: post)) := by
  obtain ⟨hnone, hnull, hnueva⟩ := h.nuevo
  have ht := h.tiene hi
  have ht₁ := ht.conNuevo hnone d
  have hchain := ht.chain
  rcases List.eq_nil_or_concat' pre with rfl | ⟨pre, prev, rfl⟩
  · have hlink : Listas.enlazarEn i l ([] : List ℕ).length s.libre { s with
        elements := update s.elements s.libre (some ⟨d, 0⟩), libre := s.libre + 1 } =
          (some ⟨⟩, ⟨update s.elements s.libre (some ⟨d, l.head⟩),
            update s.lists i (some ⟨s.libre, l.elementsCount⟩), s.libre + 1⟩) := by
      rw [Listas.enlazarEn, if_pos (by simp),
        Op.bind_some (listLinkElement_eq hnull (Function.update_self s.libre _ s.elements))]
      dsimp only
      rw [Function.update_idem]
      rfl
    rw [Op.bind_some hlink, contar_update]
    refine ⟨_, rfl, h.inserta hi _ _ _ _ hcs ?_ ⟨l.head, Function.update_self _ _ _⟩ (fun p hp => ?_)
      fun p _ hp => Function.update_of_ne hp _ _⟩
    · rw [siguiente_update]
      rw [hcs] at hchain
      exact hchain.push hnull (hcs ▸ hnueva i)
    · have hpn : p ≠ s.libre := fun he => hnueva i (he ▸ hp)
      exact ⟨_, by rw [Function.update_of_ne hpn, eq_some_of_ne_none (ht.vivos p hp)]⟩
  · have hmem : prev ∈ celdas i := by rw [hcs]; simp
    have hne : prev ≠ s.libre := fun he => hnueva i (he ▸ hmem)
    have hsplit : celdas i = pre ++ prev :: post := by rw [hcs]; simp
    rw [hsplit] at hchain
    have hprevio := (hsplit ▸ ht₁).getElement (((pre ++ [prev]).length : ℤ) - 1) (by simp)
    -- what follows the place, or `NULL` at the end
    have hnext : listGetElement i ((pre ++ [prev]).length : ℤ) { s with
        elements := update s.elements s.libre (some ⟨d, 0⟩), libre := s.libre + 1 } =
          (some (siguiente s.elements prev), { s with
            elements := update s.elements s.libre (some ⟨d, 0⟩), libre := s.libre + 1 }) := by
      rcases post with - | ⟨c, post⟩
      · rw [(hchain.next_eq_stop_iff).mpr rfl]
        exact (hcs ▸ ht₁).getElement_out (by simp)
      · rw [hchain.after.head_eq]
        exact (hcs ▸ ht₁).getElement _ rfl
    have hprev : update s.elements s.libre (some ⟨d, 0⟩) prev =
        some ⟨dato s.elements prev, siguiente s.elements prev⟩ := by
      rw [Function.update_of_ne hne, eq_some_of_ne_none (ht.vivos prev hmem)]
    have hnew : update (update s.elements s.libre (some ⟨d, 0⟩)) prev
        (some ⟨dato s.elements prev, s.libre⟩) s.libre = some ⟨d, 0⟩ := by
      rw [Function.update_of_ne (Ne.symm hne), Function.update_self]
    have hlink : Listas.enlazarEn i l (pre ++ [prev]).length s.libre { s with
        elements := update s.elements s.libre (some ⟨d, 0⟩), libre := s.libre + 1 } =
          (some ⟨⟩, ⟨update (update s.elements prev (some ⟨dato s.elements prev, s.libre⟩)) s.libre
            (some ⟨d, siguiente s.elements prev⟩), s.lists, s.libre + 1⟩) := by
      rw [Listas.enlazarEn, if_neg (by simp; omega), Op.bind_some hnext, Op.bind_some hprevio,
        Op.bind_some (listLinkElement_eq (ht.ne_null hmem) hprev), listLinkElement_eq hnull hnew]
      dsimp only
      rw [Function.update_comm (Ne.symm hne), Function.update_idem]
    rw [Op.bind_some hlink, contar_eq hi]
    refine ⟨_, rfl, h.inserta hi _ _ _ _ hcs ?_ ⟨_, Function.update_self _ _ _⟩ (fun p hp => ?_)
      fun p hp hpn => ?_⟩
    · rw [siguiente_update, siguiente_update, List.append_assoc]
      exact hchain.insert hnull (hsplit ▸ hnueva i)
    · have hpn : p ≠ s.libre := fun he => hnueva i (he ▸ hp)
      by_cases hpp : p = prev
      · exact ⟨s.libre, by rw [Function.update_of_ne hpn, hpp, Function.update_self]⟩
      · exact ⟨_, by rw [Function.update_of_ne hpn, Function.update_of_ne hpp,
          eq_some_of_ne_none (ht.vivos p hp)]⟩
    · have hpp : p ≠ prev := fun he => hp (he ▸ hmem)
      rw [Function.update_of_ne hpn, Function.update_of_ne hpp]

theorem Representa.addInIndex (h : Representa s q celdas) (hi : s.lists i = some l) (index : ℤ)
    (d : ℕ) : ∃ s', listAddInIndex i index d s = (some ⟨⟩, s') ∧
      Guarda s' (update q i (some (if 0 ≤ index ∧ index ≤ (celdas i).length then
        ((celdas i).map (dato s.elements)).insertIdx index.toNat d
          else (celdas i).map (dato s.elements)))) := by
  have ht := h.tiene hi
  have hcount := ht.elementsCount
  unfold listAddInIndex
  rw [Op.bind_some ht.leerLista]
  by_cases hindex : 0 ≤ index ∧ index ≤ (celdas i).length
  · have hrange : index ≤ l.elementsCount ∧ 0 ≤ index := by omega
    rw [if_pos hrange, Op.bind_some (listCreateElement_eq d s)]
    have hlen : ((celdas i).take index.toNat).length = index.toNat := by
      rw [List.length_take]
      omega
    obtain ⟨s', hrun, hrep⟩ := h.enlazarEn hi d (List.take_append_drop index.toNat (celdas i)).symm
    rw [hlen, Int.toNat_of_nonneg hindex.1] at hrun
    refine ⟨s', ?_, ?_⟩
    · change ((Listas.enlazarEn i l index s.libre) >>= fun _ =>
        contar i 1 >>= fun _ => pure PUnit.unit) _ = _
      rw [← Op.bind_assoc, Op.bind_some hrun]
      rfl
    · have hsplit : ((celdas i).map (dato s.elements)).insertIdx index.toNat d =
          ((celdas i).take index.toNat).map (dato s.elements) ++
            d :: ((celdas i).drop index.toNat).map (dato s.elements) := by
        rw [← insertIdx_append, ← List.map_append, List.take_append_drop, List.length_map, hlen]
      rw [if_pos hindex, hsplit]
      exact ⟨_, hrep⟩
  · rw [if_neg hindex, if_neg (by omega), h.igual hi]
    exact ⟨s, rfl, celdas, h⟩

/-- The pointer at an index, `NULL` where there is none. -/
def en (xs : List ℕ) (index : ℤ) : ℕ := if 0 ≤ index then xs.getD index.toNat 0 else 0

theorem en_out {xs : List ℕ} {index : ℤ} (h : ¬ (0 ≤ index ∧ index < xs.length)) :
    en xs index = 0 := by
  unfold en
  split
  · have hle : xs.length ≤ index.toNat := by omega
    rw [List.getD_eq_getElem?_getD, List.getElem?_eq_none hle, Option.getD_none]
  · rfl

theorem en_append (xs ys : List ℕ) (x : ℕ) : en (xs ++ x :: ys) xs.length = x := by
  simp [en]

theorem partir {index : ℤ} (h0 : 0 ≤ index) (h : index < cs.length) :
    ∃ pre p post, cs = pre ++ p :: post ∧ index = pre.length := by
  have hlt : index.toNat < cs.length := by omega
  refine ⟨cs.take index.toNat, cs[index.toNat], cs.drop (index.toNat + 1), by simp, ?_⟩
  rw [List.length_take]
  omega

theorem Representa.get (h : Representa s q celdas) (hi : s.lists i = some l) (index : ℤ) :
    listGet i index s = (some (en ((celdas i).map (dato s.elements)) index), s) := by
  have ht := h.tiene hi
  unfold listGet
  by_cases hindex : 0 ≤ index ∧ index < (celdas i).length
  · obtain ⟨pre, p, post, hcs, rfl⟩ := partir hindex.1 hindex.2
    have hmem : p ∈ celdas i := by rw [hcs]; simp
    rw [Op.bind_some ((hcs ▸ ht).getElement _ rfl), if_neg (ht.ne_null hmem),
      Op.bind_some (ht.leerElemento hmem), hcs, List.map_append, List.map_cons]
    have hen := en_append (pre.map (dato s.elements)) (post.map (dato s.elements))
      (dato s.elements p)
    rw [List.length_map] at hen
    rw [hen]
    rfl
  · rw [Op.bind_some (ht.getElement_out hindex), if_pos rfl,
      en_out (by rwa [List.length_map])]
    rfl

theorem map_update_split {f : ℕ → ℕ} {d : ℕ} (hnd : (pre ++ p :: post).Nodup) :
    (pre ++ p :: post).map (update f p d) = pre.map f ++ d :: post.map f := by
  obtain ⟨-, hpost, hpre⟩ := List.nodup_append.mp hnd
  have hsame : ∀ xs : List ℕ, p ∉ xs → xs.map (update f p d) = xs.map f := by
    refine fun xs hp => List.map_congr_left fun x hx => Function.update_of_ne ?_ _ _
    rintro rfl
    exact hp hx
  rw [List.map_append, List.map_cons, Function.update_self, hsame post (List.nodup_cons.mp hpost).1,
    hsame pre fun hp => hpre p hp p List.mem_cons_self rfl]

theorem Representa.sobrescribe (h : Representa s q celdas) (hi : s.lists i = some l)
    (hp : p ∈ celdas i) (d : ℕ) :
    Representa { s with elements := update s.elements p (some ⟨d, siguiente s.elements p⟩) }
      (update q i (some ((celdas i).map (update (dato s.elements) p d)))) celdas := by
  have ht := h.tiene hi
  have hnext : siguiente (update s.elements p (some ⟨d, siguiente s.elements p⟩)) =
      siguiente s.elements := by
    rw [siguiente_update, Function.update_eq_self]
  have hvivos : ∀ x ∈ celdas i,
      update s.elements p (some ⟨d, siguiente s.elements p⟩) x ≠ none := by
    intro x hx
    by_cases hxp : x = p
    · rw [hxp, Function.update_self]
      simp
    · rw [Function.update_of_ne hxp]
      exact ht.vivos x hx
  have ht' : Tiene { s with elements := update s.elements p (some ⟨d, siguiente s.elements p⟩) } i l
      (celdas i) := ⟨hi, by rw [hnext]; exact ht.chain, ht.elementsCount, hvivos⟩
  have hrep := h.set (by rw [hi]; simp) ht'
    (by rw [← hi, Function.update_eq_self]) (fun x hx => .inl hx)
    (fun x hx _ => Function.update_of_ne (ne_of_mem_of_not_mem hp hx).symm _ _)
    (fun x hx hne => absurd hx hne)
    (fun x hx => ⟨hx, fun hmem => (h.vivos x).mpr ⟨i, hmem⟩ (h.libre x hx).1⟩)
  rwa [Function.update_eq_self, dato_update] at hrep

theorem Representa.replace (h : Representa s q celdas) (hi : s.lists i = some l) (index : ℤ)
    (d : ℕ) : ∃ s', listReplace i index d s =
        (some (en ((celdas i).map (dato s.elements)) index), s') ∧
      Guarda s' (update q i (some (if 0 ≤ index then
        ((celdas i).map (dato s.elements)).set index.toNat d
          else (celdas i).map (dato s.elements)))) := by
  have ht := h.tiene hi
  unfold listReplace
  by_cases hindex : 0 ≤ index ∧ index < (celdas i).length
  · obtain ⟨pre, p, post, hcs, rfl⟩ := partir hindex.1 hindex.2
    have hmem : p ∈ celdas i := by rw [hcs]; simp
    have hrep := h.sobrescribe hi hmem d
    have hen := en_append (pre.map (dato s.elements)) (post.map (dato s.elements))
      (dato s.elements p)
    rw [List.length_map] at hen
    have hset : ((celdas i).map (dato s.elements)).set pre.length d =
        (celdas i).map (update (dato s.elements) p d) := by
      rw [hcs, map_update_split (hcs ▸ ht.chain.nodup)]
      simp
    rw [Op.bind_some ((hcs ▸ ht).getElement _ rfl), if_neg (ht.ne_null hmem),
      Op.bind_some (ht.leerElemento hmem), if_pos hindex.1, Int.toNat_natCast, hset]
    refine ⟨_, ?_, _, hrep⟩
    rw [hcs, List.map_append, List.map_cons, hen]
    rfl
  · have hout : ¬ (0 ≤ index ∧ index < ((celdas i).map (dato s.elements)).length) := by
      rwa [List.length_map]
    have hset : (if 0 ≤ index then ((celdas i).map (dato s.elements)).set index.toNat d
        else (celdas i).map (dato s.elements)) = (celdas i).map (dato s.elements) := by
      split
      · rw [List.set_eq_of_length_le]
        rw [List.length_map]
        omega
      · rfl
    rw [Op.bind_some (ht.getElement_out hindex), if_pos rfl, en_out hout, hset, h.igual hi]
    exact ⟨s, rfl, celdas, h⟩

/-- The end of a removal: one element of the list has been given back. -/
theorem Representa.borra (h : Representa s q celdas) (hi : s.lists i = some l) {hd : ℕ}
    {elements : ℕ → Option LinkElement} (hcs : celdas i = pre ++ p :: post)
    (hchain : Chain (siguiente elements) 0 hd (pre ++ post)) (hgone : elements p = none)
    (hold : ∀ x ∈ pre ++ post, ∃ next, elements x = some ⟨dato s.elements x, next⟩)
    (hsame : ∀ x, x ∉ celdas i → elements x = s.elements x) :
    Representa ⟨elements, update s.lists i (some ⟨hd, l.elementsCount + -1⟩), s.libre⟩
      (update q i (some ((pre ++ post).map (dato s.elements)))) (update celdas i (pre ++ post)) := by
  have hdatos : (pre ++ post).map (dato elements) = (pre ++ post).map (dato s.elements) := by
    refine List.map_congr_left fun x hx => ?_
    obtain ⟨next, hx⟩ := hold x hx
    rw [dato, hx]
    rfl
  have hmem : ∀ x, x ∈ celdas i ↔ x = p ∨ x ∈ pre ++ post := by
    intro x
    rw [hcs, List.mem_append, List.mem_cons, List.mem_append]
    tauto
  have hcount := (h.tiene hi).elementsCount
  rw [hcs, List.length_append, List.length_cons] at hcount
  rw [← hdatos]
  refine h.set (by rw [hi]; simp)
    ⟨Function.update_self i _ s.lists, hchain, ?_, fun x hx => ?_⟩ rfl
    (fun x hx => .inl ((hmem x).mpr (.inr hx))) (fun x hx _ => hsame x hx)
    (fun x hown hne => ?_) fun x hx => ⟨hx, fun hmem' => ?_⟩
  · rw [List.length_append]
    change l.elementsCount + -1 = _
    omega
  · obtain ⟨next, hx⟩ := hold x hx
    simp [hx]
  · rw [((hmem x).mp hown).resolve_right hne]
    exact hgone
  · exact (h.vivos x).mpr ⟨i, (hmem x).mpr (.inr hmem')⟩ (h.libre x hx).1

theorem Representa.remove (h : Representa s q celdas) (hi : s.lists i = some l)
    (hcs : celdas i = pre ++ p :: post) : ∃ s', listRemove i pre.length s =
        (some (dato s.elements p), s') ∧
      Guarda s' (update q i (some ((pre ++ post).map (dato s.elements)))) := by
  have ht := h.tiene hi
  have hmem : p ∈ celdas i := by rw [hcs]; simp
  have hchain := ht.chain
  have hnd := hchain.nodup
  rw [hcs] at hnd
  have hhead : l.head ≠ 0 := fun he => by
    rw [← hchain.eq_nil_iff, hcs] at he
    simp at he
  unfold listRemove
  rw [Op.bind_some ht.leerLista, if_neg hhead, Op.bind_some ((hcs ▸ ht).getElement _ rfl),
    Op.bind_some (ht.leerElemento hmem)]
  rcases List.eq_nil_or_concat' pre with rfl | ⟨pre, prev, rfl⟩
  · have hlink : desenlazar i l ([] : List ℕ).length (siguiente s.elements p) s =
        (some ⟨⟩, ⟨s.elements, update s.lists i (some ⟨siguiente s.elements p, l.elementsCount⟩),
          s.libre⟩) := by
      rw [desenlazar, if_pos (by simp)]
      rfl
    rw [Op.bind_some hlink, Op.bind_some contar_update]
    refine ⟨⟨update s.elements p none, _, s.libre⟩, rfl, _, h.borra hi hcs ?_
      (Function.update_self _ _ _) (fun x hx => ?_) fun x hx => ?_⟩
    · rw [hcs] at hchain
      rw [siguiente_update_none]
      obtain rfl := hchain.head_eq
      exact hchain.tail.update (List.nodup_cons.mp hnd).1 0
    · have hxp : x ≠ p := fun he => (List.nodup_cons.mp hnd).1 (he ▸ hx)
      exact ⟨_, by rw [Function.update_of_ne hxp,
        eq_some_of_ne_none (ht.vivos x (hcs ▸ List.mem_cons_of_mem p hx))]⟩
    · exact Function.update_of_ne (ne_of_mem_of_not_mem hmem hx).symm _ _
  · have hsplit : celdas i = pre ++ prev :: p :: post := by rw [hcs]; simp
    have hprev : prev ∈ celdas i := by rw [hsplit]; simp
    rw [hsplit] at hchain
    have hnot := (List.nodup_cons.mp (List.nodup_middle.mp hnd)).1
    have hprevio := (hsplit ▸ ht).getElement (((pre ++ [prev]).length : ℤ) - 1) (by simp)
    have hlink : desenlazar i l (pre ++ [prev]).length (siguiente s.elements p) s =
        (some ⟨⟩, ⟨update s.elements prev (some ⟨dato s.elements prev, siguiente s.elements p⟩),
          s.lists, s.libre⟩) := by
      rw [desenlazar, if_neg (by simp; omega), Op.bind_some hprevio,
        listLinkElement_eq (ht.ne_null hprev) (eq_some_of_ne_none (ht.vivos prev hprev))]
    rw [Op.bind_some hlink, Op.bind_some (contar_eq hi)]
    refine ⟨⟨update (update s.elements prev (some ⟨dato s.elements prev,
      siguiente s.elements p⟩)) p none, _, s.libre⟩, rfl, _, h.borra hi hcs ?_
      (Function.update_self _ _ _) (fun x hx => ?_) fun x hx => ?_⟩
    · rw [siguiente_update_none, siguiente_update]
      have herase := hchain.erase
      rw [List.append_cons] at herase
      exact herase.update hnot 0
    · have hxp : x ≠ p := ne_of_mem_of_not_mem hx hnot
      have hown : x ∈ celdas i := by
        rw [hcs, List.mem_append, List.mem_cons]
        exact (List.mem_append.mp hx).imp id Or.inr
      by_cases hxv : x = prev
      · exact ⟨_, by rw [Function.update_of_ne hxp, hxv, Function.update_self]⟩
      · exact ⟨_, by rw [Function.update_of_ne hxp, Function.update_of_ne hxv,
          eq_some_of_ne_none (ht.vivos x hown)]⟩
    · rw [Function.update_of_ne (ne_of_mem_of_not_mem hmem hx).symm,
        Function.update_of_ne (ne_of_mem_of_not_mem hprev hx).symm]

/-- Past the end, in a list with elements, a `NULL` is read. -/
theorem Representa.remove_out (h : Representa s q celdas) (hi : s.lists i = some l)
    (hne : celdas i ≠ []) {index : ℤ} (hindex : ¬ (0 ≤ index ∧ index < (celdas i).length)) :
    (listRemove i index s).1 = none := by
  have ht := h.tiene hi
  have hhead : l.head ≠ 0 := fun he => hne (ht.chain.eq_nil_iff.mpr he)
  have hnull : leerElemento 0 s = (none, s) := by
    rw [leerElemento]
    by_contra hsome
    obtain ⟨j, hj⟩ := (h.vivos 0).mp fun he => hsome (by rw [he])
    exact h.fat.ne_stop hj rfl
  unfold listRemove
  rw [Op.bind_some ht.leerLista, if_neg hhead, Op.bind_some (ht.getElement_out hindex),
    Op.bind_none hnull]

theorem Representa.remove_nil (h : Representa s q celdas) (hi : s.lists i = some l)
    (hnil : celdas i = []) (index : ℤ) : listRemove i index s = (some 0, s) := by
  have ht := h.tiene hi
  unfold listRemove
  rw [Op.bind_some ht.leerLista, if_pos (ht.chain.eq_nil_iff.mp hnil)]
  rfl

/-! ## The loops -/

theorem Representa.length_le (h : Representa s q celdas) (hi : s.lists i = some l) :
    (celdas i).length < s.libre + 1 := by
  have ht := h.tiene hi
  have hsub : (celdas i).toFinset ⊆ Finset.range s.libre := by
    intro p hp
    rw [Finset.mem_range]
    by_contra hle
    exact ht.vivos p (List.mem_toFinset.mp hp) (h.libre p (by omega)).1
  have hcard := Finset.card_le_card hsub
  rw [List.toFinset_card_of_nodup ht.chain.nodup, Finset.card_range] at hcard
  omega

theorem buscar_eq {condition : ℕ → Bool} {a rondas : ℕ} {position : ℤ}
    (h : Chain (siguiente s.elements) 0 a cs) (hvivos : ∀ p ∈ cs, s.elements p ≠ none)
    (hrondas : cs.length < rondas) : buscar condition rondas a position s =
      (some ((cs.find? fun p => condition (dato s.elements p)).getD 0,
        position + (cs.findIdx fun p => condition (dato s.elements p))), s) := by
  induction cs generalizing a rondas position with
  | nil =>
    obtain ⟨n, rfl⟩ : ∃ n, rondas = n + 1 := ⟨rondas - 1, by rw [List.length_nil] at hrondas; omega⟩
    rw [buscar, if_pos (h.eq_nil_iff.mp rfl)]
    simp
  | cons p cs ih =>
    obtain ⟨n, rfl⟩ : ∃ n, rondas = n + 1 := ⟨rondas - 1, by omega⟩
    obtain rfl := h.head_eq
    have hne : a ≠ 0 := fun he => h.stop_not_mem (he ▸ List.mem_cons_self)
    have hleer : leerElemento a s = (some ⟨dato s.elements a, siguiente s.elements a⟩, s) := by
      rw [leerElemento, eq_some_of_ne_none (hvivos a List.mem_cons_self)]
    rw [buscar, if_neg hne, Op.bind_some hleer]
    dsimp only
    by_cases hc : condition (dato s.elements a) = true
    · rw [if_pos hc, List.find?_cons_of_pos (p := fun p => condition (dato s.elements p)) hc,
        List.findIdx_cons, hc]
      simp
    · have hrest := @ih _ _ (position + 1) h.tail
        (fun x hx => hvivos x (List.mem_cons_of_mem a hx))
        (Nat.lt_of_succ_lt_succ hrondas)
      rw [if_neg hc, hrest, List.find?_cons_of_neg (p := fun p => condition (dato s.elements p)) hc,
        List.findIdx_cons]
      simp [hc]
      omega

theorem Representa.findElement (h : Representa s q celdas) (hi : s.lists i = some l)
    (condition : ℕ → Bool) : listFindElement i condition s =
      (some (((celdas i).find? fun p => condition (dato s.elements p)).getD 0,
        (((celdas i).findIdx fun p => condition (dato s.elements p) : ℕ) : ℤ)), s) := by
  have ht := h.tiene hi
  unfold listFindElement
  rw [Op.bind_some ht.leerLista, Op.get_bind, buscar_eq ht.chain ht.vivos (h.length_le hi),
    Int.zero_add]

theorem Representa.find (h : Representa s q celdas) (hi : s.lists i = some l)
    (condition : ℕ → Bool) : listFind i condition s =
      (some ((((celdas i).map (dato s.elements)).find? condition).getD 0), s) := by
  have ht := h.tiene hi
  unfold listFind
  have hmap : ((celdas i).map (dato s.elements)).find? condition =
      ((celdas i).find? fun p => condition (dato s.elements p)).map (dato s.elements) :=
    List.find?_map ..
  rw [Op.bind_some (h.findElement hi condition), hmap]
  dsimp only
  cases hfind : (celdas i).find? fun p => condition (dato s.elements p) with
  | none => rfl
  | some p =>
    have hmem := List.mem_of_find?_eq_some hfind
    rw [Option.getD_some, if_neg (ht.ne_null hmem), Op.bind_some (ht.leerElemento hmem)]
    rfl

theorem eraseP_append_cons {α : Type} {f : α → Bool} {xs ys : List α} {x : α} (hx : f x = true)
    (h : ∀ y ∈ xs, f y = false) : (xs ++ x :: ys).eraseP f = xs ++ ys := by
  rw [List.eraseP_append_right _ fun y hy => by simp [h y hy], List.eraseP_cons_of_pos hx]

theorem Representa.removeByCondition (h : Representa s q celdas) (hi : s.lists i = some l)
    (condition : ℕ → Bool) : ∃ s', listRemoveByCondition i condition s =
        (some ((((celdas i).map (dato s.elements)).find? condition).getD 0), s') ∧
      Guarda s' (update q i (some (((celdas i).map (dato s.elements)).eraseP condition))) := by
  have ht := h.tiene hi
  unfold listRemoveByCondition
  have hmap : ((celdas i).map (dato s.elements)).find? condition =
      ((celdas i).find? fun p => condition (dato s.elements p)).map (dato s.elements) :=
    List.find?_map ..
  rw [Op.bind_some (h.findElement hi condition), hmap]
  dsimp only
  cases hfind : (celdas i).find? fun p => condition (dato s.elements p) with
  | none =>
    have hsame : ((celdas i).map (dato s.elements)).eraseP condition =
        (celdas i).map (dato s.elements) := by
      refine List.eraseP_of_forall_not fun d hd => ?_
      obtain ⟨p, hp, rfl⟩ := List.mem_map.mp hd
      exact List.find?_eq_none.mp hfind p hp
    rw [hsame, h.igual hi]
    exact ⟨s, rfl, celdas, h⟩
  | some p =>
    obtain ⟨hp, pre, post, hcs, hpre⟩ := List.find?_eq_some_iff_append.mp hfind
    have hpre' : ∀ x ∈ pre, condition (dato s.elements x) = false := fun x hx => by
      simpa using hpre x hx
    have hidx : (celdas i).findIdx (fun p => condition (dato s.elements p)) = pre.length := by
      rw [hcs, List.findIdx_append, List.findIdx_eq_length_of_false hpre', if_neg (lt_irrefl _),
        List.findIdx_cons, hp, cond_true, Nat.zero_add]
    have hmem : p ∈ celdas i := by rw [hcs]; simp
    obtain ⟨s', hrun, hg⟩ := h.remove hi hcs
    refine ⟨s', ?_, ?_⟩
    · rw [Option.getD_some, if_neg (ht.ne_null hmem), hidx, hrun]
      rfl
    · have herase : ((celdas i).map (dato s.elements)).eraseP condition =
          (pre ++ post).map (dato s.elements) := by
        rw [hcs, List.map_append, List.map_cons, eraseP_append_cons hp ?_, List.map_append]
        intro d hd
        obtain ⟨x, hx, rfl⟩ := List.mem_map.mp hd
        exact hpre' x hx
      rwa [herase]

theorem vaciar_eq {rondas : ℕ} (hi : s.lists i = some l)
    (hchain : Chain (siguiente s.elements) 0 l.head cs) (hvivos : ∀ p ∈ cs, s.elements p ≠ none)
    (hrondas : cs.length < rondas) : vaciar i rondas s = (some ⟨⟩,
      ⟨fun p => if p ∈ cs then none else s.elements p,
        update s.lists i (some ⟨0, l.elementsCount⟩), s.libre⟩) := by
  induction cs generalizing s l rondas with
  | nil =>
    obtain ⟨n, rfl⟩ : ∃ n, rondas = n + 1 := ⟨rondas - 1, by rw [List.length_nil] at hrondas; omega⟩
    have hleer : leerLista i s = (some l, s) := by rw [leerLista, hi]
    have hnil := hchain.eq_nil_iff.mp rfl
    rw [vaciar, Op.bind_some hleer, if_pos hnil]
    have hsame : update s.lists i (some ⟨0, l.elementsCount⟩) = s.lists := by
      rw [← hnil, ← hi, Function.update_eq_self]
    rw [hsame]
    simp
  | cons p cs ih =>
    obtain ⟨n, rfl⟩ : ∃ n, rondas = n + 1 := ⟨rondas - 1, by omega⟩
    obtain rfl := hchain.head_eq
    have hne : l.head ≠ 0 := fun he => hchain.stop_not_mem (he ▸ List.mem_cons_self)
    have hleer : leerLista i s = (some l, s) := by rw [leerLista, hi]
    have hleer' : leerElemento l.head s =
        (some ⟨dato s.elements l.head, siguiente s.elements l.head⟩, s) := by
      rw [leerElemento, eq_some_of_ne_none (hvivos l.head List.mem_cons_self)]
    have hnd := List.nodup_cons.mp hchain.nodup
    have hvivos' : ∀ x ∈ cs, update s.elements l.head none x ≠ none := by
      intro x hx
      rw [Function.update_of_ne (ne_of_mem_of_not_mem hx hnd.1)]
      exact hvivos x (List.mem_cons_of_mem _ hx)
    have hrest := ih (s := ⟨update s.elements l.head none,
        update s.lists i (some ⟨siguiente s.elements l.head, l.elementsCount⟩), s.libre⟩)
      (Function.update_self i _ s.lists)
      (by rw [siguiente_update_none]; exact hchain.tail.update hnd.1 0) hvivos'
      (Nat.lt_of_succ_lt_succ hrondas)
    rw [vaciar, Op.bind_some hleer, if_neg hne, Op.bind_some hleer']
    change vaciar i n _ = _
    rw [hrest, Function.update_idem]
    congr 3
    funext x
    by_cases hx : x = l.head
    · simp [hx]
    · simp [hx]

theorem Representa.clean (h : Representa s q celdas) (hi : s.lists i = some l) :
    ∃ s', listClean i s = (some ⟨⟩, s') ∧ s'.lists i ≠ none ∧
      Representa s' (update q i (some [])) (update celdas i []) := by
  have ht := h.tiene hi
  have hvaciar := vaciar_eq hi ht.chain ht.vivos (h.length_le hi)
  unfold listClean
  rw [Op.get_bind, Op.bind_some hvaciar]
  have hleer : leerLista i ⟨fun p => if p ∈ celdas i then none else s.elements p,
      update s.lists i (some ⟨0, l.elementsCount⟩), s.libre⟩ = (some ⟨0, l.elementsCount⟩, _) :=
    Prod.ext (Function.update_self ..) rfl
  rw [Op.bind_some hleer]
  refine ⟨⟨_, update s.lists i (some ⟨0, 0⟩), s.libre⟩, Prod.ext rfl (congrArg (Heap.mk _ · _)
    (Function.update_idem ..)), by simp, ?_⟩
  have ht' : Tiene ⟨fun p => if p ∈ celdas i then none else s.elements p,
      update s.lists i (some ⟨0, 0⟩), s.libre⟩ i ⟨0, 0⟩ [] :=
    ⟨Function.update_self i _ s.lists, .nil, rfl, fun p hp => absurd hp List.not_mem_nil⟩
  exact h.set (by rw [hi]; simp) ht' rfl
    (fun p hp => absurd hp List.not_mem_nil) (fun p hown _ => if_neg hown)
    (fun p hown _ => if_pos hown) fun p hp => ⟨hp, List.not_mem_nil⟩

/-- The record of a list without elements is given or given back. -/
theorem Representa.registro (h : Representa s q celdas) (hnil : celdas i = []) {o : Option TList}
    (ho : ∀ l ∈ o, l = ⟨0, 0⟩) {libre : ℕ} (hle : s.libre ≤ libre) (hi : i ≠ 0) (hlt : i < libre) :
    Representa ⟨s.elements, update s.lists i o, libre⟩ (update q i (o.map fun _ => [])) celdas where
  fat := by
    have hroot : cabeza (update s.lists i o) = cabeza s.lists := by
      funext j
      by_cases hji : j = i
      · subst hji
        have hcero : cabeza s.lists j = 0 := (h.fat.chain j).eq_nil_iff.mp hnil
        rw [cabeza, Function.update_self, hcero]
        cases o with
        | none => rfl
        | some l => rw [ho l rfl]; rfl
      · rw [cabeza, Function.update_of_ne hji, cabeza]
    rw [hroot]
    exact h.fat
  vivos := h.vivos
  elementsCount j l hj := by
    change update s.lists i o j = some l at hj
    by_cases hji : j = i
    · subst hji
      rw [Function.update_self] at hj
      rw [ho l hj, hnil]
      rfl
    · rw [Function.update_of_ne hji] at hj
      exact h.elementsCount j l hj
  datos j := by
    change update q i _ j = (update s.lists i o j).map fun _ => (celdas j).map (dato s.elements)
    by_cases hji : j = i
    · subst hji
      rw [Function.update_self, Function.update_self, hnil]
      rfl
    · rw [Function.update_of_ne hji, Function.update_of_ne hji]
      exact h.datos j
  libre p hp := by
    change libre ≤ p at hp
    obtain ⟨hnone, hlista⟩ := h.libre p (hle.trans hp)
    have hpi : p ≠ i := by omega
    exact ⟨hnone, (Function.update_of_ne hpi ..).trans hlista⟩
  null := by
    change update s.lists i o 0 = none ∧ 0 < libre
    rw [Function.update_of_ne (Ne.symm hi)]
    exact ⟨h.null.1, by omega⟩

theorem Representa.sin_lista (h : Representa s q celdas) (hi : s.lists i = none) :
    celdas i = [] := by
  have hchain := h.fat.chain i
  rw [cabeza, hi] at hchain
  exact hchain.eq_nil_iff.mpr rfl

theorem Representa.direccion (h : Representa s q celdas) (hi : s.lists i = some l) :
    i ≠ 0 ∧ i < s.libre := by
  constructor
  · rintro rfl
    simp [h.null.1] at hi
  · by_contra hle
    simp [(h.libre i (by omega)).2] at hi

theorem listCreate_eq (s : Heap) : listCreate s = (some s.libre, { s with
    lists := update s.lists s.libre (some ⟨0, 0⟩)
    libre := s.libre + 1 }) := rfl

theorem Representa.fresca (h : Representa s q celdas) : s.libre ≠ 0 ∧ q s.libre = none := by
  have hpos := h.null.2
  exact ⟨by omega, by rw [h.datos, (h.libre s.libre (le_refl _)).2]; rfl⟩

theorem Representa.create (h : Representa s q celdas) : Representa { s with
    lists := update s.lists s.libre (some ⟨0, 0⟩)
    libre := s.libre + 1 } (update q s.libre (some [])) celdas := by
  obtain ⟨-, hlista⟩ := h.libre s.libre (le_refl _)
  have hpos := h.null.2
  exact h.registro (h.sin_lista hlista) (o := some ⟨0, 0⟩) (by simp) (Nat.le_succ _) (by omega)
    (Nat.lt_succ_self _)

theorem Representa.destroy (h : Representa s q celdas) (hi : s.lists i = some l) :
    ∃ s', listDestroy i s = (some ⟨⟩, s') ∧ Guarda s' (update q i none) := by
  obtain ⟨s₁, hclean, hne, hrep⟩ := h.clean hi
  obtain ⟨l₁, hl₁⟩ := Option.ne_none_iff_exists'.mp hne
  obtain ⟨hnull, hlt⟩ := hrep.direccion hl₁
  have hfin := hrep.registro (Function.update_self ..) (o := none) (by simp) (le_refl _) hnull hlt
  rw [Function.update_idem] at hfin
  unfold listDestroy
  rw [Op.bind_some hclean]
  exact ⟨_, rfl, _, hfin⟩

/-! ## What goes from one list to another -/

/-- The list `i` has these elements and the list `j` holds what has been put in it so far. -/
def Junta (s : Heap) (q : ℕ → Option (List ℕ)) (i j : ℕ) (cs acc : List ℕ) : Prop :=
  ∃ celdas, Representa s (update q j (some acc)) celdas ∧ celdas i = cs

section Junta
variable {j : ℕ} {acc ds done rest : List ℕ}

theorem Junta.add (h : Junta s q i j cs acc) (hij : i ≠ j) (d : ℕ) :
    ∃ n s', listAdd j d s = (some n, s') ∧ Junta s' q i j cs (acc ++ [d]) := by
  obtain ⟨celdas, hrep, hcs⟩ := h
  have hj := hrep.datos j
  rw [Function.update_self] at hj
  obtain ⟨l, hl, hacc⟩ := Option.map_eq_some_iff.mp hj.symm
  obtain ⟨s', hadd, hrep'⟩ := hrep.add hl d
  rw [hacc, Function.update_idem] at hrep'
  exact ⟨_, s', hadd, _, hrep', by rw [Function.update_of_ne hij, hcs]⟩

theorem Junta.datos (h : Junta s q i j cs acc) (hij : i ≠ j) (hqi : q i = some ds) :
    cs.map (dato s.elements) = ds := by
  obtain ⟨celdas, hrep, rfl⟩ := h
  have hi := hrep.datos i
  rw [Function.update_of_ne hij, hqi] at hi
  obtain ⟨l, -, hds⟩ := Option.map_eq_some_iff.mp hi.symm
  exact hds

theorem iterar_eq {closure : ℕ → Op Heap PUnit} {g : ℕ → List ℕ} (hij : i ≠ j)
    (hqi : q i = some ds)
    (hclosure : ∀ d s acc, Junta s q i j cs acc →
      ∃ s', closure d s = (some ⟨⟩, s') ∧ Junta s' q i j cs (acc ++ g d))
    (h : Junta s q i j cs acc) (hcs : cs = done ++ rest) {a rondas : ℕ}
    (ha : Chain (siguiente s.elements) 0 a rest) (hrondas : rest.length < rondas) :
    ∃ s', iterar closure rondas a s = (some ⟨⟩, s') ∧
      Junta s' q i j cs (acc ++ (rest.map (dato s.elements)).flatMap g) := by
  induction rest generalizing s acc done a rondas with
  | nil =>
    obtain ⟨n, rfl⟩ : ∃ n, rondas = n + 1 := ⟨rondas - 1, by rw [List.length_nil] at hrondas; omega⟩
    rw [iterar, if_pos (ha.eq_nil_iff.mp rfl), List.map_nil, List.flatMap_nil, List.append_nil]
    exact ⟨s, rfl, h⟩
  | cons p rest ih =>
    obtain ⟨n, rfl⟩ : ∃ n, rondas = n + 1 := ⟨rondas - 1, by omega⟩
    obtain rfl := ha.head_eq
    have hne : a ≠ 0 := fun he => ha.stop_not_mem (he ▸ List.mem_cons_self)
    have hmem : a ∈ cs := by rw [hcs]; simp
    -- the element is still there after the closure
    have hleer : ∀ {s acc}, Junta s q i j cs acc →
        leerElemento a s = (some ⟨dato s.elements a, siguiente s.elements a⟩, s) := by
      rintro s acc ⟨celdas, hrep, hi⟩
      rw [leerElemento, eq_some_of_ne_none ((hrep.vivos a).mpr ⟨i, hi ▸ hmem⟩)]
    obtain ⟨s₁, hrun, h₁⟩ := hclosure (dato s.elements a) s acc h
    have hchain : Chain (siguiente s₁.elements) 0 (siguiente s₁.elements a) rest := by
      obtain ⟨celdas, hrep, hi⟩ := h₁
      have hc := hrep.fat.chain i
      rw [hi, hcs] at hc
      exact hc.after
    have hdato : ∀ p ∈ cs, dato s₁.elements p = dato s.elements p :=
      List.map_inj_left.mp ((h₁.datos hij hqi).trans (h.datos hij hqi).symm)
    obtain ⟨s', hiterar, h'⟩ := @ih s₁ _ (done ++ [a]) h₁ (by rw [hcs]; simp) _ _ hchain
      (Nat.lt_of_succ_lt_succ hrondas)
    refine ⟨s', ?_, ?_⟩
    · rw [iterar, if_neg hne, Op.bind_some (hleer h)]
      dsimp only
      rw [Op.bind_some hrun, Op.bind_some (hleer h₁)]
      exact hiterar
    · have hrest : rest.map (dato s₁.elements) = rest.map (dato s.elements) :=
        List.map_congr_left fun p hp => hdato p (by rw [hcs]; simp [hp])
      rw [hrest, List.append_assoc] at h'
      rwa [List.map_cons, List.flatMap_cons]

/-- A new list with what the closure puts in it for each element of another. -/
theorem Representa.iterate (h : Representa s q celdas) (hi : s.lists i = some l)
    {closure : ℕ → Op Heap PUnit} (g : ℕ → List ℕ)
    (hclosure : ∀ d s₁ acc, Junta s₁ q i s.libre (celdas i) acc →
      ∃ s₂, closure d s₁ = (some ⟨⟩, s₂) ∧ Junta s₂ q i s.libre (celdas i) (acc ++ g d)) :
    ∃ s', listIterate i closure { s with
      lists := update s.lists s.libre (some ⟨0, 0⟩)
      libre := s.libre + 1 } = (some ⟨⟩, s') ∧
        Junta s' q i s.libre (celdas i) (((celdas i).map (dato s.elements)).flatMap g) := by
  have hij : i ≠ s.libre := (h.direccion hi).2.ne
  have hi₁ : update s.lists s.libre (some ⟨0, 0⟩) i = some l :=
    (Function.update_of_ne hij ..).trans hi
  have ht := h.create.tiene hi₁
  obtain ⟨s', hiterar, hjunta⟩ := iterar_eq hij (h.contenido hi) hclosure
    ⟨celdas, h.create, rfl⟩ (List.nil_append _).symm ht.chain (h.create.length_le hi₁)
  refine ⟨s', ?_, hjunta⟩
  unfold listIterate
  rw [Op.bind_some ht.leerLista, Op.get_bind]
  exact hiterar

theorem Representa.filter (h : Representa s q celdas) (hi : s.lists i = some l)
    (condition : ℕ → Bool) : ∃ s', listFilter i condition s = (some s.libre, s') ∧
      Guarda s' (update q s.libre (some (((celdas i).map (dato s.elements)).filter condition))) := by
  have hij : i ≠ s.libre := (h.direccion hi).2.ne
  have hclosure : ∀ d s₁ acc, Junta s₁ q i s.libre (celdas i) acc →
      ∃ s₂, addIfApply s.libre condition d s₁ = (some ⟨⟩, s₂) ∧
        Junta s₂ q i s.libre (celdas i) (acc ++ if condition d then [d] else []) := by
    intro d s₁ acc hjunta
    unfold addIfApply
    by_cases hd : condition d = true
    · obtain ⟨n, s₂, hadd, hjunta'⟩ := hjunta.add hij d
      rw [if_pos hd, if_pos hd, Op.bind_some hadd]
      exact ⟨s₂, rfl, hjunta'⟩
    · rw [if_neg hd, if_neg hd, List.append_nil]
      exact ⟨s₁, rfl, hjunta⟩
  obtain ⟨s', hiterar, celdas', hrep, -⟩ := h.iterate hi _ hclosure
  have hfilter : ∀ ds : List ℕ, ds.flatMap (fun d => if condition d then [d] else []) =
      ds.filter condition := by
    intro ds
    induction ds with
    | nil => rfl
    | cons d ds ih =>
      rw [List.flatMap_cons, ih, List.filter_cons]
      by_cases hd : condition d = true <;> simp [hd]
  rw [hfilter] at hrep
  refine ⟨s', ?_, _, hrep⟩
  unfold listFilter
  rw [Op.bind_some (listCreate_eq s), Op.bind_some hiterar]
  rfl

theorem Representa.map (h : Representa s q celdas) (hi : s.lists i = some l)
    (transformer : ℕ → ℕ) : ∃ s', listMap i transformer s = (some s.libre, s') ∧
      Guarda s' (update q s.libre (some (((celdas i).map (dato s.elements)).map transformer))) := by
  have hij : i ≠ s.libre := (h.direccion hi).2.ne
  have hclosure : ∀ d s₁ acc, Junta s₁ q i s.libre (celdas i) acc →
      ∃ s₂, addAfterTransform s.libre transformer d s₁ = (some ⟨⟩, s₂) ∧
        Junta s₂ q i s.libre (celdas i) (acc ++ [transformer d]) := by
    intro d s₁ acc hjunta
    obtain ⟨n, s₂, hadd, hjunta'⟩ := hjunta.add hij (transformer d)
    unfold addAfterTransform
    rw [Op.bind_some hadd]
    exact ⟨s₂, rfl, hjunta'⟩
  obtain ⟨s', hiterar, celdas', hrep, -⟩ := h.iterate hi _ hclosure
  rw [← List.map_eq_flatMap] at hrep
  refine ⟨s', ?_, _, hrep⟩
  unfold listMap
  rw [Op.bind_some (listCreate_eq s), Op.bind_some hiterar]
  rfl

end Junta

theorem Guarda.abre {xs : List ℕ} (h : Guarda s q) (hq : q i = some xs) :
    ∃ celdas l, Representa s q celdas ∧ s.lists i = some l ∧
      xs = (celdas i).map (dato s.elements) ∧ l.elementsCount = xs.length := by
  obtain ⟨celdas, h⟩ := h
  have hi := h.datos i
  rw [hq] at hi
  obtain ⟨l, hl, hxs⟩ := Option.map_eq_some_iff.mp hi.symm
  exact ⟨celdas, l, h, hl, hxs.symm, by rw [h.elementsCount i l hl, ← hxs, List.length_map]⟩

theorem Guarda.countSatisfying {xs : List ℕ} (h : Guarda s q) (hq : q i = some xs)
    (condition : ℕ → Bool) : ∃ s', listCountSatisfying i condition s =
        (some ((xs.filter condition).length : ℤ), s') ∧ Guarda s' q := by
  obtain ⟨celdas, l, hrep, hi, rfl, -⟩ := h.abre hq
  obtain ⟨s₁, hfilter, h₁⟩ := hrep.filter hi condition
  obtain ⟨celdas₁, l₁, hrep₁, hj, -, hcount⟩ := h₁.abre (Function.update_self s.libre _ q)
  obtain ⟨s₂, hdestroy, h₂⟩ := hrep₁.destroy hj
  have hq₂ : update q s.libre none = q := by
    rw [← hrep.fresca.2, Function.update_eq_self]
  rw [Function.update_idem, hq₂] at h₂
  refine ⟨s₂, ?_, h₂⟩
  unfold listCountSatisfying
  rw [Op.bind_some hfilter, Op.bind_some (hrep₁.tiene hj).leerLista, Op.bind_some hdestroy, hcount]
  rfl

theorem Guarda.allSatisfy {xs : List ℕ} (h : Guarda s q) (hq : q i = some xs)
    (condition : ℕ → Bool) :
    ∃ s', listAllSatisfy i condition s = (some (xs.all condition), s') ∧ Guarda s' q := by
  obtain ⟨s₁, hrun, h₁⟩ := h.countSatisfying hq condition
  obtain ⟨celdas, l, hrep, hi, -, hcount⟩ := h₁.abre hq
  refine ⟨s₁, ?_, h₁⟩
  have hall : decide (((xs.filter condition).length : ℤ) = l.elementsCount) = xs.all condition := by
    rw [Bool.eq_iff_iff, decide_eq_true_iff, hcount, Int.natCast_inj,
      List.length_filter_eq_length_iff, List.all_eq_true]
  unfold listAllSatisfy
  rw [Op.bind_some hrun, Op.bind_some (hrep.tiene hi).leerLista, ← hall]
  rfl

end Heap

end TpSo.Commons.Listas
