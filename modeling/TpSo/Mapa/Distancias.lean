import Mathlib.Order.WellFounded
import TpSo.Mapa.Planificador

/-!
# Which trainer is the nearest

`srdfAlgorithm` takes the differences of the two coordinates with their signs, so that every move back
to lower coordinates counts against the distance: a trainer that is past its pokenest has a negative
one, the more so the farther it is.
-/

namespace TpSo.Mapa

/-! ## The last of the least -/

section LastLeast
variable {α : Type} {key : α → ℤ} {l : List α} {p p' q : α}

/-- The element at the last of the places of the list where the key is least. -/
def LastLeast (key : α → ℤ) (l : List α) (p : α) : Prop :=
  ∃ l₁ l₂, l = l₁ ++ p :: l₂ ∧ (∀ q ∈ l₁, key p ≤ key q) ∧ ∀ q ∈ l₂, key p < key q

theorem LastLeast.mem (h : LastLeast key l p) : p ∈ l := by
  obtain ⟨l₁, l₂, rfl, -, -⟩ := h
  exact List.mem_append_right _ List.mem_cons_self

theorem LastLeast.le (h : LastLeast key l p) (hq : q ∈ l) : key p ≤ key q := by
  obtain ⟨l₁, l₂, rfl, h₁, h₂⟩ := h
  rcases List.mem_append.mp hq with hq | hq
  · exact h₁ q hq
  · rcases List.mem_cons.mp hq with rfl | hq
    · exact Int.le_refl _
    · exact (h₂ q hq).le

theorem LastLeast.snoc (h : LastLeast key l p) (q : α) :
    LastLeast key (l ++ [q]) (if key q ≤ key p then q else p) := by
  split
  · next hle =>
    exact ⟨l, [], rfl, fun r hr => hle.trans (h.le hr), by simp⟩
  · next hlt =>
    obtain ⟨l₁, l₂, rfl, h₁, h₂⟩ := h
    refine ⟨l₁, l₂ ++ [q], by simp, h₁, ?_⟩
    intro r hr
    rcases List.mem_append.mp hr with hr | hr
    · exact h₂ r hr
    · rw [List.mem_singleton.mp hr]
      omega

theorem LastLeast.foldl (h : LastLeast key l p) (qs : List α) :
    LastLeast key (l ++ qs) (qs.foldl (fun p q => if key q ≤ key p then q else p) p) := by
  induction qs generalizing l p with
  | nil => rwa [List.append_nil]
  | cons q qs ih =>
    have hrest := ih (h.snoc q)
    rwa [List.append_assoc] at hrest

theorem LastLeast.unique (h : LastLeast key l p) (h' : LastLeast key l p') : p = p' := by
  have hle := h.le h'.mem
  have hle' := h'.le h.mem
  obtain ⟨l₁, l₂, rfl, -, h₂⟩ := h
  obtain ⟨l₁', l₂', heq, -, h₂'⟩ := h'
  -- the place of one is not after that of the other
  rcases List.append_eq_append_iff.mp heq with ⟨as, rfl, has⟩ | ⟨as, rfl, has⟩
  · cases as with
    | nil => exact (List.cons.inj has).1
    | cons a as =>
      have hmem : p' ∈ l₂ := by
        rw [(List.cons.inj has).2]
        exact List.mem_append_right _ List.mem_cons_self
      have := h₂ p' hmem
      omega
  · cases as with
    | nil => exact (List.cons.inj has).1.symm
    | cons a as =>
      have hmem : p ∈ l₂' := by
        rw [(List.cons.inj has).2]
        exact List.mem_append_right _ List.mem_cons_self
      have := h₂' p hmem
      omega

/-- The last of the least has a property if and only if everybody without it has somebody with it
that has a lesser key, or the same key at a later place. -/
theorem LastLeast.iff_beaten (h : LastLeast key l p) (P : α → Prop) :
    P p ↔ ∀ (i : ℕ) (q : α), l[i]? = some q → ¬ P q →
      ∃ (j : ℕ) (r : α), l[j]? = some r ∧ P r ∧ (key r < key q ∨ key r = key q ∧ i < j) := by
  have hle : ∀ q ∈ l, key p ≤ key q := fun q hq => h.le hq
  obtain ⟨l₁, l₂, rfl, -, h₂⟩ := h
  have hp : (l₁ ++ p :: l₂)[l₁.length]? = some p := by simp
  have hdespues : ∀ {i : ℕ} {q : α}, (l₁ ++ p :: l₂)[i]? = some q → l₁.length < i → key p < key q := by
    intro i q hq hi
    obtain ⟨k, rfl⟩ : ∃ k, i = l₁.length + (k + 1) := ⟨i - l₁.length - 1, by omega⟩
    rw [List.getElem?_append_right (by omega), Nat.add_sub_cancel_left,
      List.getElem?_cons_succ] at hq
    exact h₂ q (List.mem_of_getElem? hq)
  constructor
  · intro hP i q hq hno
    refine ⟨l₁.length, p, hp, hP, ?_⟩
    rcases (hle q (List.mem_of_getElem? hq)).lt_or_eq with hlt | heq
    · exact .inl hlt
    · refine .inr ⟨heq, ?_⟩
      rcases Nat.lt_trichotomy i l₁.length with hi | rfl | hi
      · exact hi
      · rw [hp] at hq
        exact absurd hP (Option.some.inj hq ▸ hno)
      · have hlt := hdespues hq hi
        omega
  · intro hall
    by_contra hno
    obtain ⟨j, r, hr, -, hgana⟩ := hall l₁.length p hp hno
    rcases hgana with hlt | ⟨heq, hj⟩
    · have hge := hle r (List.mem_of_getElem? hr)
      omega
    · have hlt := hdespues hr hj
      omega

end LastLeast

/-! ## The trainer that is attended -/

def Pcb.movimientos (p : Pcb) : ℕ :=
  (p.proximaPokenest.coordenada.puntox - p.punto.puntox).natAbs +
    (p.proximaPokenest.coordenada.puntoy - p.punto.puntoy).natAbs

/-- Those of them that go back to lower coordinates. -/
def Pcb.retrocesos (p : Pcb) : ℕ :=
  (p.punto.puntox - p.proximaPokenest.coordenada.puntox).toNat +
    (p.punto.puntoy - p.proximaPokenest.coordenada.puntoy).toNat

/-- What is left of the moves when each of those that go back is taken away twice, as an `int`. -/
def Pcb.saldo (p : Pcb) : ℤ := i32 (p.movimientos - 2 * p.retrocesos)

theorem calcularDistancia_eq (p : Pcb) : calcularDistancia p = p.saldo := by
  unfold calcularDistancia Pcb.saldo Pcb.movimientos Pcb.retrocesos
  congr 1
  omega

def Estado.MasCercano (m : Estado) (p : ℕ) : Prop :=
  ∀ q ∈ m.listaListos, (m.pcb p).movimientos ≤ (m.pcb q).movimientos

/-- Every trainer that is not among the nearest has one of them with less left, or with as much and
at a later place. -/
def Estado.NingunLejanoPrimero (m : Estado) : Prop :=
  ∀ (i p : ℕ), m.listaListos[i]? = some p → ¬ m.MasCercano p →
    ∃ j q : ℕ, m.listaListos[j]? = some q ∧ m.MasCercano q ∧
      ((m.pcb q).saldo < (m.pcb p).saldo ∨ (m.pcb q).saldo = (m.pcb p).saldo ∧ i < j)

theorem Estado.exists_masCercano {m : Estado} (h : m.listaListos ≠ []) :
    ∃ q ∈ m.listaListos, m.MasCercano q := by
  obtain ⟨q, hq, hmenor⟩ := (measure fun q => (m.pcb q).movimientos).wf.has_min
    {q | q ∈ m.listaListos} ⟨_, List.head_mem h⟩
  exact ⟨q, hq, fun r hr => Nat.not_lt.mp (hmenor r hr)⟩

/-- Where nobody has to go back the nearest come first. -/
theorem Estado.ningunLejanoPrimero_of_avanzan {m : Estado}
    (h : ∀ p ∈ m.listaListos, (m.pcb p).retrocesos = 0 ∧ (m.pcb p).movimientos < 2147483648) :
    m.NingunLejanoPrimero := by
  have hsaldo : ∀ p ∈ m.listaListos, (m.pcb p).saldo = (m.pcb p).movimientos := by
    intro p hp
    obtain ⟨hno, hcabe⟩ := h p hp
    rw [Pcb.saldo, hno]
    exact i32_of_range (by omega) (by omega)
  intro i p hp hlejos
  have hmem := List.mem_of_getElem? hp
  obtain ⟨q, hq, hcerca⟩ := Estado.exists_masCercano (List.ne_nil_of_mem hmem)
  obtain ⟨j, hj⟩ := List.getElem?_of_mem hq
  have hmenos : (m.pcb q).movimientos < (m.pcb p).movimientos := by
    by_contra hno
    exact hlejos fun r hr => (Nat.not_lt.mp hno).trans (hcerca r hr)
  refine ⟨j, q, hj, hcerca, .inl ?_⟩
  rw [hsaldo q hq, hsaldo p hmem]
  exact_mod_cast hmenos

theorem lastLeast_menorDistancia {m : Estado} {ps : List ℕ} {p : ℕ}
    (h : menorDistancia m ps = some p) : LastLeast (fun q => (m.pcb q).saldo) ps p := by
  simp only [← calcularDistancia_eq]
  cases ps with
  | nil => cases h
  | cons q qs =>
    have hprimero : LastLeast (fun q => calcularDistancia (m.pcb q)) [q] q :=
      ⟨[], [], rfl, by simp, by simp⟩
    obtain rfl := Option.some.inj h
    exact hprimero.foldl qs

theorem menorDistancia_of_ne_nil {m : Estado} {ps : List ℕ} (h : ps ≠ []) :
    ∃ p, menorDistancia m ps = some p := by
  obtain ⟨q, qs, rfl⟩ := List.exists_cons_of_ne_nil h
  exact ⟨_, rfl⟩

theorem empezar_srdf (m : Estado) :
    empezar .srdf m = (elegirSrdf m).map fun p => .elegido p false := rfl

/-- With somebody in the list, as the planner has seen to: a trainer with the fewest moves left is
attended if and only if no trainer that is farther comes first by its moves back; and the first that
does not know its direction goes before all that do. -/
theorem srdf_atiende_al_mas_cercano (m : Estado) :
    ((∀ p ∈ m.listaListos, (m.pcb p).direccionDesconocida = false) → m.listaListos ≠ [] →
      ∃ p, empezar .srdf m = some (.elegido p false) ∧ p ∈ m.listaListos ∧
        (m.MasCercano p ↔ m.NingunLejanoPrimero)) ∧
    ((∃ p ∈ m.listaListos, (m.pcb p).direccionDesconocida = true) →
      ∃ p l₁ l₂, empezar .srdf m = some (.elegido p false) ∧ m.listaListos = l₁ ++ p :: l₂ ∧
        (m.pcb p).direccionDesconocida = true ∧
        ∀ q ∈ l₁, (m.pcb q).direccionDesconocida = false) := by
  constructor
  · intro hconocen hlistos
    obtain ⟨p, hp⟩ := menorDistancia_of_ne_nil (m := m) hlistos
    have hnadie : m.listaListos.find? (fun p => (m.pcb p).direccionDesconocida) = none := by
      rw [List.find?_eq_none]
      intro q hq
      simp [hconocen q hq]
    have hmenor := lastLeast_menorDistancia hp
    refine ⟨p, ?_, hmenor.mem, hmenor.iff_beaten m.MasCercano⟩
    rw [empezar_srdf, elegirSrdf, hnadie, Option.none_or, hp]
    rfl
  · rintro ⟨p₀, hp₀, hdesc⟩
    obtain ⟨p, hp⟩ : ∃ p, m.listaListos.find? (fun p => (m.pcb p).direccionDesconocida) = some p := by
      rw [← Option.isSome_iff_exists, List.find?_isSome]
      exact ⟨p₀, hp₀, hdesc⟩
    obtain ⟨hdescp, l₁, l₂, hl, hantes⟩ := List.find?_eq_some_iff_append.mp hp
    refine ⟨p, l₁, l₂, ?_, hl, hdescp, ?_⟩
    · rw [empezar_srdf, elegirSrdf, hp]
      rfl
    · intro q hq
      simpa using hantes q hq

/-- Two trainers past the pokenest that they go back to. -/
def deVuelta (sinDireccion : Bool) : Estado where
  listaPokenest := [⟨80, [80], ⟨3, 3⟩, 1⟩]
  directorios := []
  pokeNests _ := []
  dirDeBill _ := []
  pcb p :=
    { sockfd := 5 + p, pathEntrenador := [], punto := if p = 0 then ⟨10, 3⟩ else ⟨4, 3⟩,
      proximaPokenest := ⟨80, [80], ⟨3, 3⟩, 1⟩, listaRecursos := p,
      direccionDesconocida := sinDireccion }
  recursos _ := []
  libre := 2
  listaListos := [0, 1]
  listaBloqueados := []
  enviados := []
  quantum := 3
  batalla := true

theorem srdf_atiende_al_mas_cercano_deVuelta :
    (∃ p, empezar .srdf (deVuelta false) = some (.elegido p false) ∧
      p ∈ (deVuelta false).listaListos ∧
      ((deVuelta false).MasCercano p ↔ (deVuelta false).NingunLejanoPrimero)) ∧
    ∃ p l₁ l₂, empezar .srdf (deVuelta true) = some (.elegido p false) ∧
      (deVuelta true).listaListos = l₁ ++ p :: l₂ ∧
      ((deVuelta true).pcb p).direccionDesconocida = true ∧
      ∀ q ∈ l₁, ((deVuelta true).pcb q).direccionDesconocida = false :=
  ⟨(srdf_atiende_al_mas_cercano (deVuelta false)).1 (fun _ _ => rfl) (by decide),
    (srdf_atiende_al_mas_cercano (deVuelta true)).2 ⟨0, List.mem_cons_self, rfl⟩⟩

/-- The one that has seven moves left goes before the one that has one. -/
theorem srdf_atiende_al_mas_lejano :
    (∀ p ∈ (deVuelta false).listaListos, ((deVuelta false).pcb p).direccionDesconocida = false) ∧
    empezar .srdf (deVuelta false) = some (.elegido 0 false) ∧
    ((deVuelta false).pcb 0).movimientos = 7 ∧ 1 ∈ (deVuelta false).listaListos ∧
    ((deVuelta false).pcb 1).movimientos = 1 :=
  ⟨fun _ _ => rfl, by decide, by decide, by decide, by decide⟩

end TpSo.Mapa
