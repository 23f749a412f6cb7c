import Mathlib.Algebra.BigOperators.Group.List.Basic
import TpSo.Base.Allocation
import TpSo.Mapa.Archivos
import TpSo.Mapa.Deteccion

/-!
# Who is in deadlock

The trainers that a reduction leaves are those in deadlock. `marcarEntrenadores` looks at what each
trainer holds and not at what it waits for, so it marks them only when the two say the same, and
marks a trainer that holds nothing by a variable that nobody has set.
-/

namespace TpSo.Mapa

namespace Estado
variable (m : Estado)

/-- The units of an identifier; a `cant` below zero counts none. -/
def unidades (id : UInt8) : ℕ :=
  ((m.listaPokenest.filter fun p => p.identificador = id).map fun p => p.cant.toNat).sum

/-- The blocked trainers that hold something. What `otros` hold, the trainers that are connected
and not blocked, is free: each of them can go on. -/
def espera (otros : List ℕ) : Allocation ℕ UInt8 where
  agents := m.listaBloqueados.toFinset.filter fun p => m.capturados p ≠ []
  waits p := (m.pcb p).proximaPokenest.identificador
  holds p id := (m.capturados p).count id
  free id := m.unidades id + (otros.map fun p => (m.capturados p).count id).sum

/-- The trainer holds a species of which no unit is left. -/
def LlevaAgotado (p : ℕ) : Prop :=
  ∃ id ∈ m.capturados p, elRecursoNoEstaDisponible m.listaPokenest id = 1

instance (p : ℕ) : Decidable (m.LlevaAgotado p) :=
  inferInstanceAs (Decidable (∃ id ∈ _, _))

/-- The trainer at the position `i` holds nothing, and the variable says so, or holds an exhausted
species exactly when it waits for one that neither a pokenest nor another trainer can give. -/
def Detectable (otros : List ℕ) (basura : ℕ → ℤ) (i p : ℕ) : Prop :=
  (m.capturados p = [] → basura (m.libre + i) ≠ 1) ∧
  (m.capturados p ≠ [] →
    (m.LlevaAgotado p ↔ (m.espera otros).free ((m.espera otros).waits p) = 0))

instance (otros : List ℕ) (basura : ℕ → ℤ) (i p : ℕ) : Decidable (m.Detectable otros basura i p) :=
  inferInstanceAs (Decidable (_ ∧ _))

end Estado

def marcarEntrenadores (basura : ℕ → ℤ) (entrenadores : List ℕ) (m : Estado) :
    List ℕ × List ℕ :=
  (entrenadores.filter fun p => marcado m basura p,
    entrenadores.filter fun p => !marcado m basura p)

/-- The copies that `detectarDeadLock` marks: that of the trainer at the position `i` of
`listaBloqueados` is at `m.libre + i`. -/
def marcados (basura : ℕ → ℤ) (m : Estado) : List ℕ :=
  match copiarEntrenadores m with
  | (some entrenadores, m) => (marcarEntrenadores basura entrenadores m).1
  | (none, _) => []

variable {m : Estado} {otros : List ℕ} {basura : ℕ → ℤ}

theorem elRecursoNoEstaDisponible_eq_one {id : UInt8} :
    elRecursoNoEstaDisponible m.listaPokenest id = 1 ↔ m.unidades id = 0 := by
  simp only [elRecursoNoEstaDisponible, Estado.unidades, List.sum_eq_zero_iff, List.mem_map,
    List.mem_filter]
  constructor
  · intro h
    rintro _ ⟨p, ⟨hp, hid⟩, rfl⟩
    by_contra hcant
    have hany : m.listaPokenest.any (fun p => p.identificador = id ∧ 1 ≤ p.cant) = true :=
      List.any_eq_true.mpr ⟨p, hp, decide_eq_true ⟨of_decide_eq_true hid, by omega⟩⟩
    rw [if_pos hany] at h
    omega
  · intro h
    rw [if_neg]
    intro hany
    obtain ⟨p, hp, hsi⟩ := List.any_eq_true.mp hany
    have hsi := of_decide_eq_true hsi
    have := h _ ⟨p, ⟨hp, decide_eq_true hsi.1⟩, rfl⟩
    omega

theorem tieneRecursoMayorADisponible_eq_one {recursos : List Pokenest} (noDisponible : ℤ)
    (ids : List UInt8) : tieneRecursoMayorADisponible recursos noDisponible ids = 1 ↔
      if ids = [] then noDisponible = 1
      else ∃ id ∈ ids, elRecursoNoEstaDisponible recursos id = 1 := by
  induction ids generalizing noDisponible with
  | nil => simp [tieneRecursoMayorADisponible]
  | cons id ids ih =>
    rw [tieneRecursoMayorADisponible, if_neg (List.cons_ne_nil _ _)]
    by_cases hid : elRecursoNoEstaDisponible recursos id = 1
    · simp [hid]
    · rw [if_neg hid, ih]
      cases ids with
      | nil => simp [hid]
      | cons => simp [hid]

theorem mem_marcados {i p : ℕ} (h : 2 ≤ m.listaBloqueados.length)
    (hp : m.listaBloqueados[i]? = some p) : m.libre + i ∈ marcados basura m ↔
      if m.capturados p = [] then basura (m.libre + i) = 1 else m.LlevaAgotado p := by
  have hi : i < m.listaBloqueados.length := (List.getElem?_eq_some_iff.mp hp).1
  rw [Estado.LlevaAgotado, ← tieneRecursoMayorADisponible_eq_one]
  simp only [marcados, copiarEntrenadores, if_pos (show 1 < m.listaBloqueados.length from h),
    marcarEntrenadores, List.mem_filter, List.mem_range', marcado, Nat.le_add_right, if_true,
    Nat.add_sub_cancel_left, hp, decide_eq_true_eq]
  constructor
  · exact And.right
  · exact fun hm => ⟨⟨i, hi, by omega⟩, hm⟩

theorem mem_agents {p : ℕ} : p ∈ (m.espera otros).agents ↔
    (∃ i : ℕ, m.listaBloqueados[i]? = some p) ∧ m.capturados p ≠ [] := by
  simp [Estado.espera, List.mem_iff_getElem?]

/-- Of those that hold something, the ones that hold an exhausted species are in deadlock when the
wait of each says the same. -/
theorem leftOver_llevaAgotado :
    (m.espera otros).LeftOver ((m.espera otros).agents.filter m.LlevaAgotado) ↔
      ∀ p ∈ (m.espera otros).agents,
        m.LlevaAgotado p ↔ (m.espera otros).free ((m.espera otros).waits p) = 0 := by
  have hfree : ∀ id, ¬ elRecursoNoEstaDisponible m.listaPokenest id = 1 →
      0 < (m.espera otros).free id := by
    intro id hid
    rw [elRecursoNoEstaDisponible_eq_one] at hid
    exact Nat.add_pos_left (Nat.pos_of_ne_zero hid) _
  have hmem : ∀ p ∈ (m.espera otros).agents,
      p ∈ (m.espera otros).agents.filter m.LlevaAgotado ↔
        ∃ id, elRecursoNoEstaDisponible m.listaPokenest id = 1 ∧
          (m.espera otros).holds p id ≠ 0 := by
    intro p hp
    rw [Finset.mem_filter, and_iff_right hp, Estado.LlevaAgotado]
    simp only [Estado.espera, ne_eq, List.count_eq_zero, not_not]
    exact exists_congr fun _ => And.comm
  rw [Allocation.leftOver_iff_of_scarce hfree (Finset.filter_subset ..) hmem]
  apply forall₂_congr
  intro p hp
  rw [Finset.mem_filter, and_iff_right hp]

/-- The trainers marked are those in deadlock exactly when each can be told by what it holds. -/
theorem marcados_iff {s : Finset ℕ} (h : 2 ≤ m.listaBloqueados.length)
    (hs : (m.espera otros).LeftOver s) :
    (∀ (i : ℕ) p, m.listaBloqueados[i]? = some p → (m.libre + i ∈ marcados basura m ↔ p ∈ s)) ↔
      ∀ (i : ℕ) p, m.listaBloqueados[i]? = some p → m.Detectable otros basura i p := by
  have hnada : ∀ p, m.capturados p = [] → p ∉ s := fun p hp hps =>
    (mem_agents.mp (hs.subset hps)).2 hp
  constructor
  · intro hmarca i p hp
    have heq : (m.espera otros).agents.filter m.LlevaAgotado = s := by
      ext q
      rw [Finset.mem_filter]
      constructor
      · intro ⟨hq, hagotado⟩
        obtain ⟨⟨j, hj⟩, hlleva⟩ := mem_agents.mp hq
        rwa [← hmarca j q hj, mem_marcados h hj, if_neg hlleva]
      · intro hqs
        have hq := hs.subset hqs
        obtain ⟨⟨j, hj⟩, hlleva⟩ := mem_agents.mp hq
        rw [← hmarca j q hj, mem_marcados h hj, if_neg hlleva] at hqs
        exact ⟨hq, hqs⟩
    constructor
    · intro hlleva
      have hno := mt (hmarca i p hp).mp (hnada p hlleva)
      rwa [mem_marcados h hp, if_pos hlleva] at hno
    · intro hlleva
      rw [← heq, leftOver_llevaAgotado] at hs
      exact hs p (mem_agents.mpr ⟨⟨i, hp⟩, hlleva⟩)
  · intro hdet i p hp
    have heq : (m.espera otros).agents.filter m.LlevaAgotado = s := by
      refine Allocation.LeftOver.unique (leftOver_llevaAgotado.mpr ?_) hs
      intro q hq
      obtain ⟨⟨j, hj⟩, hlleva⟩ := mem_agents.mp hq
      exact (hdet j q hj).2 hlleva
    rw [mem_marcados h hp]
    split
    · next hlleva => exact iff_of_false ((hdet i p hp).1 hlleva) (hnada p hlleva)
    · next hlleva =>
      rw [← heq, Finset.mem_filter, and_iff_right (mem_agents.mpr ⟨⟨i, hp⟩, hlleva⟩)]

/-! ## Two trainers that wait, and one that does not -/

def mapaAgotado (espera : UInt8 × UInt8) (lleva : ℕ → List UInt8) : Estado where
  listaPokenest := [⟨65, [65], ⟨1, 1⟩, 0⟩, ⟨66, [66], ⟨2, 2⟩, 0⟩]
  directorios := []
  pokeNests _ := []
  dirDeBill _ := []
  pcb p :=
    { sockfd := p, pathEntrenador := [p.toUInt8], punto := ⟨0, 0⟩,
      proximaPokenest := ⟨if p = 0 then espera.1 else espera.2, [], ⟨0, 0⟩, 0⟩,
      listaRecursos := p, direccionDesconocida := true }
  recursos := lleva
  libre := 3
  listaListos := [2]
  listaBloqueados := [0, 1]
  enviados := []
  quantum := 3
  batalla := true

def cruzados : Estado :=
  mapaAgotado (66, 65) fun p => if p = 0 then [65] else if p = 1 then [66] else []

/-- Both wait for what the third one has, who can go on. -/
def esperanAlListo : Estado :=
  mapaAgotado (66, 66) fun p => if p = 2 then [66] else [65]

theorem marcados_iff_cruzados : ∃ s, (cruzados.espera [2]).LeftOver s ∧
    ∀ (i : ℕ) p, cruzados.listaBloqueados[i]? = some p →
      (cruzados.libre + i ∈ marcados (fun _ => 0) cruzados ↔ p ∈ s) := by
  obtain ⟨s, hs⟩ := (cruzados.espera [2]).exists_leftOver
  refine ⟨s, hs, (marcados_iff (le_refl 2) hs).mpr ?_⟩
  intro i p hp
  match i, hp with
  | 0, rfl => decide
  | 1, rfl => decide

/-- Both hold a species of which no unit is left, and are sent to battle. -/
theorem no_todo_marcado_en_deadlock : ¬ ∀ (m : Estado) (basura : ℕ → ℤ) (s : Finset ℕ),
    2 ≤ m.listaBloqueados.length → (m.espera m.listaListos).LeftOver s →
    ∀ (i : ℕ) p, m.listaBloqueados[i]? = some p →
      (m.libre + i ∈ marcados basura m ↔ p ∈ s) := by
  intro h
  obtain ⟨s, hs⟩ := (esperanAlListo.espera [2]).exists_leftOver
  have hmem : 0 ∈ s := (h esperanAlListo (fun _ => 0) s (le_refl 2) hs 0 0 rfl).mp (by decide)
  have hfree := (Allocation.free_le_available s _).trans_eq (hs.stuck 0 hmem)
  exact absurd hfree (by decide)

end TpSo.Mapa
