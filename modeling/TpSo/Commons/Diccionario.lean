import Mathlib.Logic.Function.Basic
import TpSo.Base.Buckets
import TpSo.Base.Run

/-!
# The dictionaries

A table of chained buckets, doubled once all of its buckets are in use. Keys are compared by their
hash alone, and `dictionary_put` adds an element even where there is one with that hash: a
dictionary is a queue for each hash, of which `dictionary_get` reads the first element and
`dictionary_remove` takes it away.
-/

namespace TpSo.Commons

universe u
variable {β : Type u}

/-- `t_hash_element`; the data may be `NULL`. -/
structure Elemento (β : Type u) where
  key : List UInt8
  hashcode : UInt32
  data : Option β

/-- `t_dictionary`: for each position of the table, the elements linked there. The sizes and counters
are `int`s of the source, here without bound. -/
structure Diccionario (β : Type u) where
  elements : List (List (Elemento β))
  tableMaxSize : ℕ
  tableCurrentSize : ℤ
  elementsAmount : ℤ

def defaultDictionaryInitialSize : ℕ := 20

def mezclar (hash : UInt32) (c : UInt8) : UInt32 :=
  let hash := hash + c.toUInt32
  let hash := hash + (hash <<< 10)
  hash ^^^ (hash >>> 6)

def dictionaryHash (key : List UInt8) : UInt32 :=
  let hash := key.foldl mezclar 0
  let hash := hash + (hash <<< 3)
  let hash := hash ^^^ (hash >>> 11)
  hash + (hash <<< 15)

def dictionaryCreate : Diccionario β where
  elements := List.replicate defaultDictionaryInitialSize []
  tableMaxSize := defaultDictionaryInitialSize
  tableCurrentSize := 0
  elementsAmount := 0

def dictionaryCreateElement (key : List UInt8) (hashcode : UInt32) (data : Option β) : Elemento β :=
  { key, hashcode, data }

/-- An element goes to its position in the new table, which has `current` positions in use. -/
def mudar (newMaxSize : ℕ) (tabla : List (List (Elemento β)) × ℤ) (element : Elemento β) :
    List (List (Elemento β)) × ℤ :=
  let newIndex := element.hashcode.toNat % newMaxSize
  match tabla.1.getD newIndex [] with
  | [] => (tabla.1.set newIndex [element], tabla.2 + 1)
  | primero :: resto => (tabla.1.set newIndex (primero :: resto ++ [element]), tabla.2)

namespace Diccionario

def dictionaryResize (self : Diccionario β) (newMaxSize : ℕ) : Diccionario β :=
  let tabla := self.elements.foldl (fun tabla lista => lista.foldl (mudar newMaxSize) tabla)
    (List.replicate newMaxSize [], 0)
  { self with elements := tabla.1, tableCurrentSize := tabla.2, tableMaxSize := newMaxSize }

def dictionaryPut (self : Diccionario β) (key : List UInt8) (data : Option β) : Diccionario β :=
  let keyHash := dictionaryHash key
  let index := keyHash.toNat % self.tableMaxSize
  let newElement := dictionaryCreateElement key keyHash data
  let self := match self.elements.getD index [] with
    | [] =>
      let self := { self with
        elements := self.elements.set index [newElement]
        tableCurrentSize := self.tableCurrentSize + 1 }
      if (self.tableMaxSize : ℤ) ≤ self.tableCurrentSize then
        self.dictionaryResize (self.tableMaxSize * 2)
      else self
    | primero :: resto =>
      { self with elements := self.elements.set index (primero :: resto ++ [newElement]) }
  { self with elementsAmount := self.elementsAmount + 1 }

def dictionaryGetElement (self : Diccionario β) (key : List UInt8) : Option (Elemento β) :=
  let keyHash := dictionaryHash key
  (self.elements.getD (keyHash.toNat % self.tableMaxSize) []).find? (·.hashcode = keyHash)

/-- The data is `NULL` where there is no element. -/
def dictionaryGet (self : Diccionario β) (key : List UInt8) : Option β :=
  (self.dictionaryGetElement key).bind (·.data)

def dictionaryHasKey (self : Diccionario β) (key : List UInt8) : Bool :=
  (self.dictionaryGetElement key).isSome

/-- Only the removal of the first of a list can leave its position empty. -/
def dictionaryRemoveElement (self : Diccionario β) (key : List UInt8) :
    Option β × Diccionario β :=
  let keyHash := dictionaryHash key
  let index := keyHash.toNat % self.tableMaxSize
  match self.elements.getD index [] with
  | [] => (none, self)
  | primero :: resto =>
    if primero.hashcode = keyHash then
      (primero.data, { self with
        elements := self.elements.set index resto
        tableCurrentSize := if resto.isEmpty then self.tableCurrentSize - 1
          else self.tableCurrentSize })
    else
      match resto.find? (·.hashcode = keyHash) with
      | none => (none, self)
      | some element => (element.data, { self with
          elements := self.elements.set index (primero :: resto.eraseP (·.hashcode = keyHash)) })

def dictionaryRemove (self : Diccionario β) (key : List UInt8) : Option β × Diccionario β :=
  let (data, self) := self.dictionaryRemoveElement key
  (data, if data.isSome then { self with elementsAmount := self.elementsAmount - 1 } else self)

def dictionaryClean (self : Diccionario β) : Diccionario β :=
  { self with
    elements := self.elements.map fun _ => []
    tableCurrentSize := 0
    elementsAmount := 0 }

/-- The calls of the closure, in order. -/
def dictionaryIterator (self : Diccionario β) : List (List UInt8 × Option β) :=
  self.elements.flatten.map fun element => (element.key, element.data)

def dictionarySize (self : Diccionario β) : ℤ := self.elementsAmount

end Diccionario

/-! ## Every run -/

inductive Llamada (β : Type u) where
  | put (key : List UInt8) (data : Option β)
  | get (key : List UInt8)
  | hasKey (key : List UInt8)
  | remove (key : List UInt8)
  | clean

inductive Respuesta (β : Type u) where
  | nada
  | dato (data : Option β)
  | hay (si : Bool)

namespace Diccionario

def llamar (self : Diccionario β) : Llamada β → Respuesta β × Diccionario β
  | .put key data => (.nada, self.dictionaryPut key data)
  | .get key => (.dato (self.dictionaryGet key), self)
  | .hasKey key => (.hay (self.dictionaryHasKey key), self)
  | .remove key => (.dato (self.dictionaryRemove key).1, (self.dictionaryRemove key).2)
  | .clean => (.nada, self.dictionaryClean)

end Diccionario

/-- A queue for each hash, and how many `NULL` have been removed since the last time that the
dictionary was cleaned. -/
structure Colas (β : Type u) where
  cola : UInt32 → List (List UInt8 × Option β)
  nulos : ℕ

namespace Colas

def vacias : Colas β := ⟨fun _ => [], 0⟩

def primero (q : Colas β) (key : List UInt8) : Option β :=
  (q.cola (dictionaryHash key)).head?.bind Prod.snd

def esNulo (q : Colas β) (key : List UInt8) : Bool :=
  (q.cola (dictionaryHash key)).head?.any (·.2.isNone)

def poner (q : Colas β) (key : List UInt8) (data : Option β) : Colas β :=
  { q with
    cola := Function.update q.cola (dictionaryHash key)
      (q.cola (dictionaryHash key) ++ [(key, data)]) }

def quitar (q : Colas β) (key : List UInt8) : Colas β where
  cola := Function.update q.cola (dictionaryHash key) (q.cola (dictionaryHash key)).tail
  nulos := q.nulos + (q.esNulo key).toNat

def llamar (q : Colas β) : Llamada β → Respuesta β × Colas β
  | .put key data => (.nada, q.poner key data)
  | .get key => (.dato (q.primero key), q)
  | .hasKey key => (.hay (!(q.cola (dictionaryHash key)).isEmpty), q)
  | .remove key => (.dato (q.primero key), q.quitar key)
  | .clean => (.nada, vacias)

end Colas

open Buckets

/-! ## The table -/

def Elemento.suHash (e : Elemento β) : ℕ := e.hashcode.toNat

def Elemento.par (e : Elemento β) : List UInt8 × Option β := (e.key, e.data)

/-- The elements with a hash, in the order of the table. -/
def Diccionario.conHash (d : Diccionario β) (h : UInt32) : List (List UInt8 × Option β) :=
  (d.elements.flatten.filter (·.hashcode = h)).map Elemento.par

structure BienArmado (d : Diccionario β) : Prop where
  length : d.elements.length = d.tableMaxSize
  tableMaxSize : ∃ k, d.tableMaxSize = defaultDictionaryInitialSize * 2 ^ k
  placed : Placed Elemento.suHash d.elements
  tableCurrentSize : d.tableCurrentSize = busy d.elements

/-- The dictionary holds what the queues hold, and counts it right but for the `NULL` that were
removed. -/
structure Representa (d : Diccionario β) (q : Colas β) : Prop where
  armado : BienArmado d
  conHash : ∀ h, d.conHash h = q.cola h
  elementsAmount : d.elementsAmount = d.dictionaryIterator.length + q.nulos

section Tabla
variable {d : Diccionario β} {q : Colas β} {key : List UInt8} {data : Option β}

theorem conHash_eq (d : Diccionario β) (h : UInt32) :
    d.conHash h = (withHash Elemento.suHash d.elements h.toNat).map Elemento.par := by
  unfold Diccionario.conHash withHash Elemento.suHash
  simp only [UInt32.toNat_inj]

theorem BienArmado.pos (h : BienArmado d) : 0 < d.elements.length := by
  obtain ⟨k, hk⟩ := h.tableMaxSize
  rw [h.length, hk]
  exact Nat.mul_pos (by decide) (Nat.two_pow_pos k)

theorem BienArmado.getD (h : BienArmado d) (k : ℕ) :
    d.elements.getD (k % d.tableMaxSize) [] = bucket d.elements k := by
  rw [bucket, h.length]

/-- Moving the elements to a table, with the positions in use counted all along. -/
theorem foldl_mudar {n : ℕ} (hn : 0 < n) (es : List (Elemento β))
    (tabla : List (List (Elemento β)) × ℤ) (hlen : tabla.1.length = n)
    (hbusy : tabla.2 = busy tabla.1) :
    es.foldl (mudar n) tabla = (es.foldl (place Elemento.suHash) tabla.1,
      (busy (es.foldl (place Elemento.suHash) tabla.1) : ℤ)) := by
  induction es generalizing tabla with
  | nil => exact Prod.ext rfl hbusy
  | cons e es ih =>
    have hlt : e.suHash % n < tabla.1.length := by
      rw [hlen]
      exact Nat.mod_lt _ hn
    have hplace : (mudar n tabla e).1 = place Elemento.suHash tabla.1 e := by
      unfold mudar place bucket
      rw [hlen]
      dsimp only
      split
      · next hnil => rw [Elemento.suHash, hnil, List.nil_append]
      · next hcons => rw [Elemento.suHash, hcons]
    have hcount : (mudar n tabla e).2 = busy (mudar n tabla e).1 := by
      unfold mudar
      dsimp only
      split
      · next hnil =>
        have hset := busy_set [e] hlt
        rw [Elemento.suHash, hnil, if_pos rfl, if_neg (by simp)] at hset
        change tabla.2 + 1 = (busy (tabla.1.set (e.hashcode.toNat % n) [e]) : ℤ)
        omega
      · next primero resto hcons =>
        have hset := busy_set (primero :: resto ++ [e]) hlt
        rw [Elemento.suHash, hcons, if_neg (by simp), if_neg (by simp)] at hset
        change tabla.2 = (busy (tabla.1.set (e.hashcode.toNat % n) (primero :: resto ++ [e])) : ℤ)
        omega
    rw [List.foldl_cons, ih _ (by rw [hplace, length_place, hlen]) hcount, List.foldl_cons, hplace]

theorem dictionaryResize_eq {n : ℕ} (hn : 0 < n) (d : Diccionario β) :
    d.dictionaryResize n = { d with
      elements := rehash Elemento.suHash n d.elements
      tableMaxSize := n
      tableCurrentSize := busy (rehash Elemento.suHash n d.elements) } := by
  have hbusy : (0 : ℤ) = busy (List.replicate n ([] : List (Elemento β))) := by
    rw [busy, List.countP_replicate]
    rfl
  have hfold := foldl_mudar hn d.elements.flatten
    (List.replicate n [], 0) List.length_replicate hbusy
  unfold Diccionario.dictionaryResize rehash
  rw [← List.foldl_flatten, hfold]

/-- An element is placed, and the table may be doubled after it. -/
theorem dictionaryPut_cases (h : BienArmado d) (key : List UInt8) (data : Option β) :
    let table := place Elemento.suHash d.elements ⟨key, dictionaryHash key, data⟩
    let doubled := rehash Elemento.suHash (d.tableMaxSize * 2) table
    d.dictionaryPut key data = ⟨table, d.tableMaxSize, busy table, d.elementsAmount + 1⟩ ∨
      d.dictionaryPut key data =
        ⟨doubled, d.tableMaxSize * 2, busy doubled, d.elementsAmount + 1⟩ := by
  intro table doubled
  have hmax : 0 < d.tableMaxSize := h.length ▸ h.pos
  have hlt := Nat.mod_lt (dictionaryHash key).toNat h.pos
  have hget := h.getD (dictionaryHash key).toNat
  have htable : table = d.elements.set ((dictionaryHash key).toNat % d.tableMaxSize)
      (bucket d.elements (dictionaryHash key).toNat ++ [⟨key, dictionaryHash key, data⟩]) := by
    rw [← h.length]
    rfl
  have hset := busy_set (bucket d.elements (dictionaryHash key).toNat ++
    [⟨key, dictionaryHash key, data⟩]) hlt
  rw [h.length, ← htable, hget, if_neg (List.append_ne_nil_of_right_ne_nil _ (by simp))] at hset
  have hcurrent := h.tableCurrentSize
  unfold Diccionario.dictionaryPut dictionaryCreateElement
  dsimp only
  rw [hget]
  split
  · next hnil =>
    rw [hnil, List.nil_append] at htable
    rw [hnil, if_pos rfl] at hset
    rw [← htable, hcurrent, show ((busy d.elements : ℤ) + 1) = busy table by omega]
    split
    · right
      rw [dictionaryResize_eq (Nat.mul_pos hmax Nat.two_pos)]
    · exact .inl rfl
  · next hcons =>
    rw [hcons] at htable
    rw [hcons, if_neg (by simp)] at hset
    rw [← htable, hcurrent, show (busy d.elements : ℤ) = busy table by omega]
    exact .inl rfl

/-- An element placed is the last one with its hash, and the only change. -/
theorem Representa.put (h : Representa d q) (key : List UInt8) (data : Option β) :
    Representa (d.dictionaryPut key data) (q.poner key data) := by
  have hpos := h.armado.pos
  have hmax : 0 < d.tableMaxSize * 2 := Nat.mul_pos (h.armado.length ▸ hpos) Nat.two_pos
  obtain ⟨k, hk⟩ := h.armado.tableMaxSize
  have hplaced := h.armado.placed.place (a := ⟨key, dictionaryHash key, data⟩)
  have hamount := h.elementsAmount
  -- both tables hold the same elements of each hash
  have hqueue : ∀ x : UInt32, (withHash Elemento.suHash (place Elemento.suHash d.elements
      ⟨key, dictionaryHash key, data⟩) x.toNat).map Elemento.par =
        (q.poner key data).cola x := by
    intro x
    rw [withHash_place h.armado.placed hpos, List.map_append, ← conHash_eq, h.conHash]
    by_cases hx : x = dictionaryHash key
    · subst hx
      simp [Colas.poner, Elemento.suHash, Elemento.par]
    · have hne : ¬(dictionaryHash key).toNat = x.toNat := fun he => hx (UInt32.toNat_inj.mp he).symm
      simp [Colas.poner, Elemento.suHash, hx, hne]
  rw [Diccionario.dictionaryIterator, List.length_map] at hamount
  rcases dictionaryPut_cases h.armado key data with he | he
  · rw [he]
    refine ⟨⟨length_place.trans h.armado.length, ⟨k, hk⟩, hplaced, rfl⟩, fun x => ?_, ?_⟩
    · rw [conHash_eq, hqueue]
    · change d.elementsAmount + 1 = ((_ : ℕ) : ℤ) + (q.nulos : ℤ)
      rw [Diccionario.dictionaryIterator, List.length_map, length_flatten_place hpos]
      omega
  · rw [he]
    refine ⟨⟨length_rehash hmax, ⟨k + 1, ?_⟩, placed_rehash hmax, rfl⟩, fun x => ?_, ?_⟩
    · rw [hk, pow_succ, mul_assoc]
    · rw [conHash_eq, withHash_rehash hmax, hqueue]
    · change d.elementsAmount + 1 = ((_ : ℕ) : ℤ) + (q.nulos : ℤ)
      rw [Diccionario.dictionaryIterator, List.length_map, length_flatten_rehash hmax,
        length_flatten_place hpos]
      omega

theorem dictionaryGetElement_eq (h : BienArmado d) (key : List UInt8) :
    d.dictionaryGetElement key =
      (withHash Elemento.suHash d.elements (dictionaryHash key).toNat).head? := by
  unfold Diccionario.dictionaryGetElement
  dsimp only
  rw [h.getD, h.placed.withHash_eq, List.head?_filter]
  simp only [Elemento.suHash, UInt32.toNat_inj]

theorem Representa.dictionaryGetElement (h : Representa d q) (key : List UInt8) :
    (d.dictionaryGetElement key).map Elemento.par = (q.cola (dictionaryHash key)).head? := by
  rw [dictionaryGetElement_eq h.armado, ← List.head?_map, ← conHash_eq, h.conHash]

theorem Representa.get (h : Representa d q) (key : List UInt8) :
    d.dictionaryGet key = q.primero key := by
  rw [Colas.primero, ← h.dictionaryGetElement, Diccionario.dictionaryGet]
  cases d.dictionaryGetElement key <;> rfl

theorem Representa.hasKey (h : Representa d q) (key : List UInt8) :
    d.dictionaryHasKey key = !(q.cola (dictionaryHash key)).isEmpty := by
  have he := h.dictionaryGetElement key
  unfold Diccionario.dictionaryHasKey
  cases hq : q.cola (dictionaryHash key) with
  | nil =>
    rw [hq, List.head?_nil, Option.map_eq_none_iff] at he
    rw [he]
    rfl
  | cons par resto =>
    rw [hq, List.head?_cons] at he
    obtain ⟨e, he, -⟩ := Option.map_eq_some_iff.mp he
    rw [he]
    rfl

/-- The removal takes the first element with the hash away, wherever it is in its list. -/
theorem dictionaryRemoveElement_eq (h : BienArmado d) (key : List UInt8) :
    d.dictionaryRemoveElement key = (d.dictionaryGetElement key).elim (none, d) fun e =>
      (e.data, { d with
        elements := drop Elemento.suHash d.elements (dictionaryHash key).toNat
        tableCurrentSize :=
          busy (drop Elemento.suHash d.elements (dictionaryHash key).toNat) }) := by
  have hget := h.getD (dictionaryHash key).toNat
  have hcurrent := h.tableCurrentSize
  have hdrop : drop Elemento.suHash d.elements (dictionaryHash key).toNat =
      d.elements.set ((dictionaryHash key).toNat % d.tableMaxSize)
        ((bucket d.elements (dictionaryHash key).toNat).eraseP
          (·.hashcode = dictionaryHash key)) := by
    rw [drop, h.length]
    simp only [Elemento.suHash, UInt32.toNat_inj]
  have hset := busy_set ((bucket d.elements (dictionaryHash key).toNat).eraseP
    (·.hashcode = dictionaryHash key)) (Nat.mod_lt (dictionaryHash key).toNat h.pos)
  rw [h.length, ← hdrop, hget] at hset
  unfold Diccionario.dictionaryRemoveElement Diccionario.dictionaryGetElement
  dsimp only
  rw [hget]
  cases hb : bucket d.elements (dictionaryHash key).toNat with
  | nil => rfl
  | cons primero resto =>
    rw [hb, if_neg (by simp)] at hset
    rw [hb] at hdrop
    dsimp only
    by_cases hp : primero.hashcode = dictionaryHash key
    · rw [List.eraseP_cons_of_pos (by simpa using hp)] at hset hdrop
      rw [if_pos hp, List.find?_cons_of_pos (by simpa using hp), Option.elim_some, ← hdrop]
      by_cases hresto : resto = []
      · rw [if_pos hresto] at hset
        rw [hresto, List.isEmpty_nil, if_pos rfl, hcurrent,
          show (busy d.elements : ℤ) - 1 = busy (drop Elemento.suHash d.elements
            (dictionaryHash key).toNat) by omega]
      · rw [if_neg hresto] at hset
        rw [if_neg (by simpa using hresto), hcurrent,
          show (busy d.elements : ℤ) = busy (drop Elemento.suHash d.elements
            (dictionaryHash key).toNat) by omega]
    · rw [List.eraseP_cons_of_neg (by simpa using hp)] at hset hdrop
      rw [if_neg hp, List.find?_cons_of_neg (by simpa using hp), ← hdrop]
      rw [if_neg (by simp)] at hset
      cases resto.find? (·.hashcode = dictionaryHash key) with
      | none => rfl
      | some e =>
        rw [Option.elim_some, hcurrent, show (busy d.elements : ℤ) = busy (drop Elemento.suHash
          d.elements (dictionaryHash key).toNat) by omega]

theorem Representa.remove (h : Representa d q) (key : List UInt8) :
    (d.dictionaryRemove key).1 = q.primero key ∧
      Representa (d.dictionaryRemove key).2 (q.quitar key) := by
  have hpos := h.armado.pos
  have hqueue := h.dictionaryGetElement key
  have hremove := dictionaryRemoveElement_eq h.armado key
  cases he : d.dictionaryGetElement key with
  | none =>
    rw [he, Option.map_none] at hqueue
    rw [he, Option.elim_none] at hremove
    have hsame : d.dictionaryRemove key = (none, d) := by
      rw [Diccionario.dictionaryRemove, hremove]
      rfl
    have hnil : q.cola (dictionaryHash key) = [] := List.head?_eq_none_iff.mp hqueue.symm
    have hq : q.quitar key = q := by
      unfold Colas.quitar Colas.esNulo
      rw [hnil, List.tail_nil, ← hnil, Function.update_eq_self, hnil]
      rfl
    rw [hsame, hq, Colas.primero, hnil]
    exact ⟨rfl, h⟩
  | some e =>
    rw [he, Option.map_some] at hqueue
    rw [he, Option.elim_some] at hremove
    have hamount := h.elementsAmount
    have hmem : e ∈ withHash Elemento.suHash d.elements (dictionaryHash key).toNat :=
      List.mem_of_mem_head? (by rw [← dictionaryGetElement_eq h.armado, he]; rfl)
    have hlen := length_flatten_drop hpos h.armado.placed hmem
    have hcola : ∀ x : UInt32, (withHash Elemento.suHash (drop Elemento.suHash d.elements
        (dictionaryHash key).toNat) x.toNat).map Elemento.par = (q.quitar key).cola x := by
      intro x
      rw [withHash_drop h.armado.placed hpos]
      by_cases hx : x = dictionaryHash key
      · rw [hx, if_pos rfl, List.map_tail, ← conHash_eq, h.conHash]
        simp [Colas.quitar]
      · rw [if_neg fun hn => hx (UInt32.toNat_inj.mp hn), ← conHash_eq, h.conHash]
        simp [Colas.quitar, hx]
    have hnulo : q.esNulo key = e.data.isNone := by
      rw [Colas.esNulo, ← hqueue]
      rfl
    have hdato : q.primero key = e.data := by
      rw [Colas.primero, ← hqueue]
      rfl
    rw [Diccionario.dictionaryIterator, List.length_map] at hamount
    unfold Diccionario.dictionaryRemove
    rw [hremove]
    dsimp only
    refine ⟨hdato.symm, ?_⟩
    have hlength : (drop Elemento.suHash d.elements (dictionaryHash key).toNat).length =
        d.tableMaxSize := length_drop.trans h.armado.length
    cases hdata : e.data with
    | none =>
      rw [if_neg (by simp)]
      refine ⟨⟨hlength, h.armado.tableMaxSize, h.armado.placed.drop, rfl⟩, fun x => ?_, ?_⟩
      · rw [conHash_eq]
        exact hcola x
      · change d.elementsAmount = ((_ : ℕ) : ℤ) + ((q.nulos + (q.esNulo key).toNat : ℕ) : ℤ)
        rw [Diccionario.dictionaryIterator, List.length_map, hnulo, hdata]
        dsimp only [Option.isNone_none, Bool.toNat_true]
        omega
    | some b =>
      rw [if_pos (by simp)]
      refine ⟨⟨hlength, h.armado.tableMaxSize, h.armado.placed.drop, rfl⟩, fun x => ?_, ?_⟩
      · rw [conHash_eq]
        exact hcola x
      · change d.elementsAmount - 1 = ((_ : ℕ) : ℤ) + ((q.nulos + (q.esNulo key).toNat : ℕ) : ℤ)
        rw [Diccionario.dictionaryIterator, List.length_map, hnulo, hdata]
        dsimp only [Option.isNone_some, Bool.toNat_false]
        omega

theorem representa_vacio (n : ℕ) (hn : ∃ k, n = defaultDictionaryInitialSize * 2 ^ k) :
    Representa ⟨List.replicate n ([] : List (Elemento β)), n, 0, 0⟩ Colas.vacias where
  armado := by
    refine ⟨List.length_replicate, hn, placed_replicate _ n, ?_⟩
    rw [busy, List.countP_replicate]
    rfl
  conHash h := by
    rw [Diccionario.conHash, List.flatten_replicate_nil]
    rfl
  elementsAmount := by
    rw [Diccionario.dictionaryIterator, List.flatten_replicate_nil]
    rfl

theorem representa_create : Representa (dictionaryCreate : Diccionario β) Colas.vacias :=
  representa_vacio _ ⟨0, rfl⟩

theorem Representa.clean (h : Representa d q) : Representa d.dictionaryClean Colas.vacias := by
  have hclean : d.dictionaryClean = ⟨List.replicate d.tableMaxSize [], d.tableMaxSize, 0, 0⟩ := by
    rw [Diccionario.dictionaryClean, List.map_const', h.armado.length]
  rw [hclean]
  exact representa_vacio _ h.armado.tableMaxSize

theorem Representa.llamar (h : Representa d q) (llamada : Llamada β) :
    (d.llamar llamada).1 = (q.llamar llamada).1 ∧
      Representa (d.llamar llamada).2 (q.llamar llamada).2 := by
  cases llamada with
  | put key data => exact ⟨rfl, h.put _ _⟩
  | get key => exact ⟨congrArg Respuesta.dato (h.get key), h⟩
  | hasKey key => exact ⟨congrArg Respuesta.hay (h.hasKey key), h⟩
  | remove key =>
    obtain ⟨hdato, hrest⟩ := h.remove key
    exact ⟨congrArg Respuesta.dato hdato, hrest⟩
  | clean => exact ⟨rfl, h.clean⟩

end Tabla

/-- A dictionary answers every list of calls as the queues of the hashes do: a key finds what was
put first with its hash, whatever its own text, and no resize is ever seen. At the end the table is
in order, and `dictionary_size` counts the elements and the `NULL` that were removed. -/
theorem dictionary_colas (llamadas : List (Llamada β)) :
    (respond Diccionario.llamar dictionaryCreate llamadas).1 =
        (respond Colas.llamar Colas.vacias llamadas).1 ∧
      Representa (respond Diccionario.llamar dictionaryCreate llamadas).2
        (respond Colas.llamar Colas.vacias llamadas).2 :=
  respond_refines (fun _ _ llamada h => h.llamar llamada) llamadas representa_create

end TpSo.Commons
