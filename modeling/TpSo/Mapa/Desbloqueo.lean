import TpSo.Mapa.Bajas

/-!
# Letting the blocked trainers go

`liberarBloqueados` goes over the positions that the list of blocked trainers had at first, and takes
out of it those that go on the way: after the first of them the last positions are past the end.
-/

namespace TpSo.Mapa

/-- `liberarBloqueados` as it should be: whoever waits for a species of which there is a unit is told
so once and leaves the list, and the others stay in their order. -/
def Estado.desbloquear (m : Estado) : Estado :=
  { m with
    enviados := m.enviados ++
      (m.listaBloqueados.filter m.hayPara).map fun p => (m.sock p, .estasDesbloqueado)
    listaBloqueados := m.listaBloqueados.filter fun p => !m.hayPara p }

def Estado.soltar (m : Estado) (i p : ℕ) : Estado :=
  { m.enviar (m.sock p) .estasDesbloqueado with
    listaBloqueados := m.listaBloqueados.eraseIdx i }

theorem listRemove_of_lt {α : Type} {l : List α} {i : ℕ} (h : i < l.length) :
    listRemove l i = some (l.eraseIdx i) := by
  have hne : l ≠ [] := List.length_pos_iff.mp (Nat.zero_lt_of_lt h)
  rw [listRemove, if_neg hne, if_pos h]

section Posiciones
variable {m : Estado}

/-- At most one pokenest of the list is the one that the trainer waits for. -/
theorem liberarBloqueado_eq {i p : ℕ} {recursos : List Pokenest}
    (hids : (recursos.map Pokenest.identificador).Nodup) (hi : i < m.listaBloqueados.length) :
    liberarBloqueado i p recursos m = (some ⟨⟩, if recursos.any (fun recurso =>
        (m.pcb p).proximaPokenest.identificador = recurso.identificador ∧ 1 ≤ recurso.cant)
      then m.soltar i p else m) := by
  induction recursos with
  | nil => rfl
  | cons recurso recursos ih =>
    rw [List.map_cons, List.nodup_cons] at hids
    unfold liberarBloqueado
    rw [List.any_cons]
    by_cases hay : (m.pcb p).proximaPokenest.identificador = recurso.identificador ∧ 1 ≤ recurso.cant
    · have hsolo : ∀ recurso' ∈ recursos, ¬ (((m.soltar i p).pcb p).proximaPokenest.identificador =
          recurso'.identificador ∧ 1 ≤ recurso'.cant) := by
        rintro recurso' hr ⟨hid, -⟩
        have hmismo : recurso.identificador = recurso'.identificador := hay.1.symm.trans hid
        apply hids.1
        rw [hmismo]
        exact List.mem_map_of_mem hr
      dsimp only
      rw [if_pos hay, listRemove_of_lt hi, if_pos (by simp [hay])]
      exact liberarBloqueado_nadie hsolo
    · dsimp only
      rw [if_neg hay, ih hids.2, decide_eq_false hay, Bool.false_or]

theorem liberarDesde_cons {i p : ℕ} {posiciones : List ℕ}
    (hids : (m.listaPokenest.map Pokenest.identificador).Nodup) (hp : m.listaBloqueados[i]? = some p) :
    liberarDesde m.listaPokenest (i :: posiciones) m =
      liberarDesde m.listaPokenest posiciones (if m.hayPara p then m.soltar i p else m) := by
  have hi : i < m.listaBloqueados.length := (List.getElem?_eq_some_iff.mp hp).1
  rw [liberarDesde, Op.get_bind, hp]
  dsimp only
  rw [Op.bind_some (liberarBloqueado_eq hids hi)]
  rfl

/-- The positions of those that stay blocked change nothing. -/
theorem liberarDesde_append {posiciones posiciones' : List ℕ}
    (hids : (m.listaPokenest.map Pokenest.identificador).Nodup)
    (h : ∀ i ∈ posiciones, ∃ p, m.listaBloqueados[i]? = some p ∧ m.hayPara p = false) :
    liberarDesde m.listaPokenest (posiciones ++ posiciones') m =
      liberarDesde m.listaPokenest posiciones' m := by
  induction posiciones with
  | nil => rfl
  | cons i posiciones ih =>
    obtain ⟨p, hp, hno⟩ := h i List.mem_cons_self
    rw [List.cons_append, liberarDesde_cons hids hp, hno]
    exact ih fun j hj => h j (List.mem_cons_of_mem _ hj)

/-- With fewer trainers than positions the loop comes to a trainer that is not there. -/
theorem liberarDesde_corto {i n : ℕ} (hids : (m.listaPokenest.map Pokenest.identificador).Nodup)
    (hne : m.listaPokenest ≠ []) (hn : 0 < n) (hlen : m.listaBloqueados.length < i + n) :
    (liberarDesde m.listaPokenest (List.range' i n) m).1 = none := by
  induction n generalizing i m with
  | zero => exact absurd hn (Nat.lt_irrefl 0)
  | succ n ih =>
    rw [List.range'_succ]
    cases hp : m.listaBloqueados[i]? with
    | none =>
      rw [liberarDesde, Op.get_bind, hp]
      dsimp only
      rw [if_neg hne]
      rfl
    | some p =>
      have hi : i < m.listaBloqueados.length := (List.getElem?_eq_some_iff.mp hp).1
      rw [liberarDesde_cons hids hp]
      split
      · apply ih (m := m.soltar i p) hids hne (by omega)
        change (m.listaBloqueados.eraseIdx i).length < i + 1 + n
        rw [List.length_eraseIdx_of_lt hi]
        omega
      · exact ih hids hne (by omega) (by omega)

end Posiciones

theorem range_append_cons (a b : ℕ) :
    List.range (a + (b + 1)) = List.range a ++ a :: List.range' (a + 1) b := by
  rw [List.range_add, List.range_succ_eq_map, List.map_cons, List.map_map]
  congr 2
  rw [List.range'_eq_map_range]
  apply List.map_congr_left
  intro i _
  dsimp only [Function.comp]
  omega

section Todos
variable {m : Estado}

theorem bloqueados_de_prefijo {a b : List ℕ} (hl : m.listaBloqueados = a ++ b)
    (h : ∀ p ∈ a, m.hayPara p = false) :
    ∀ i ∈ List.range a.length, ∃ p, m.listaBloqueados[i]? = some p ∧ m.hayPara p = false := by
  intro i hi
  have hlt : i < a.length := List.mem_range.mp hi
  refine ⟨a[i], ?_, h _ (List.getElem_mem hlt)⟩
  rw [hl, List.getElem?_append_left hlt, List.getElem?_eq_getElem hlt]

theorem desbloquear_ultimo {a : List ℕ} {p : ℕ} (hl : m.listaBloqueados = a ++ [p])
    (h : ∀ p ∈ a, m.hayPara p = false) :
    (if m.hayPara p then m.soltar a.length p else m) = m.desbloquear := by
  have hnadie : a.filter m.hayPara = [] := by
    rw [List.filter_eq_nil_iff]
    intro q hq
    simp [h q hq]
  have htodos : a.filter (fun q => !m.hayPara q) = a := by
    rw [List.filter_eq_self]
    intro q hq
    simp [h q hq]
  unfold Estado.desbloquear
  rw [hl, List.filter_append, List.filter_append, hnadie, htodos]
  cases hp : m.hayPara p with
  | true =>
    simp [Estado.soltar, Estado.enviar, hl, hp, List.eraseIdx_append_of_length_le]
  | false =>
    simp [hp, ← hl]

theorem liberarBloqueados_ultimo (hids : (m.listaPokenest.map Pokenest.identificador).Nodup)
    (h : ∀ p ∈ m.listaBloqueados.dropLast, m.hayPara p = false) :
    liberarBloqueados m = (some ⟨⟩, m.desbloquear) := by
  rw [liberarBloqueados, Op.get_bind]
  dsimp only [id_eq]
  rcases List.eq_nil_or_concat m.listaBloqueados with hl | ⟨a, p, hl⟩
  · rw [hl]
    change (some PUnit.unit, m) = _
    simp only [Estado.desbloquear, hl, List.filter_nil, List.map_nil, List.append_nil]
    rw [← hl]
  · rw [List.concat_eq_append] at hl
    rw [hl, List.dropLast_concat] at h
    have hp : m.listaBloqueados[a.length]? = some p := by simp [hl]
    have hrange : List.range m.listaBloqueados.length = List.range a.length ++ [a.length] := by
      rw [hl, List.length_append, List.length_singleton, List.range_succ]
    rw [hrange, liberarDesde_append hids (bloqueados_de_prefijo hl h), liberarDesde_cons hids hp,
      desbloquear_ultimo hl h]
    rfl

/-- Whoever goes before the last one leaves the loop a position that is not there. -/
theorem liberarBloqueados_no_vuelve (hids : (m.listaPokenest.map Pokenest.identificador).Nodup)
    {p : ℕ} (hp : p ∈ m.listaBloqueados.dropLast) (hay : m.hayPara p = true) :
    (liberarBloqueados m).1 = none := by
  have hne : m.listaPokenest ≠ [] := by
    intro hnil
    rw [Estado.hayPara, hnil] at hay
    cases hay
  obtain ⟨q, hq⟩ : ∃ q, m.listaBloqueados.dropLast.find? m.hayPara = some q := by
    rw [← Option.isSome_iff_exists, List.find?_isSome]
    exact ⟨p, hp, hay⟩
  obtain ⟨hayq, a, b, hab, hantes⟩ := List.find?_eq_some_iff_append.mp hq
  have hlista : m.listaBloqueados ≠ [] := by
    intro hnil
    rw [hnil] at hp
    cases hp
  have hl : m.listaBloqueados = a ++ q :: (b ++ [m.listaBloqueados.getLast hlista]) := by
    rw [← List.cons_append, ← List.append_assoc, ← hab, List.dropLast_append_getLast]
  have hlq : m.listaBloqueados[a.length]? = some q := by
    rw [hl]
    simp
  have hlen : m.listaBloqueados.length = a.length + ((b.length + 1) + 1) := by
    rw [hl]
    simp
  rw [liberarBloqueados, Op.get_bind]
  dsimp only [id_eq]
  rw [hlen, range_append_cons,
    liberarDesde_append hids (bloqueados_de_prefijo hl fun r hr => by simpa using hantes r hr),
    liberarDesde_cons hids hlq, if_pos hayq]
  apply liberarDesde_corto (m := m.soltar a.length q) hids hne (by omega)
  change (m.listaBloqueados.eraseIdx a.length).length < _
  rw [List.length_eraseIdx_of_lt (by omega)]
  omega

end Todos

/-- Everybody that can go goes, and only they, if and only if nobody before the last blocked trainer
can. -/
theorem liberarBloqueados_iff {m : Estado}
    (hids : (m.listaPokenest.map Pokenest.identificador).Nodup) :
    liberarBloqueados m = (some ⟨⟩, m.desbloquear) ↔
      ∀ p ∈ m.listaBloqueados.dropLast, m.hayPara p = false := by
  constructor
  · intro h p hp
    cases hay : m.hayPara p with
    | false => rfl
    | true =>
      have hnone := liberarBloqueados_no_vuelve hids hp hay
      rw [h] at hnone
      cases hnone
  · exact liberarBloqueados_ultimo hids

/-- Three trainers wait for the only unit of a species, or one. -/
def esperanUnidad (listaBloqueados : List ℕ) : Estado :=
  { mapaDeTres with listaPokenest := [⟨66, [66], ⟨3, 3⟩, 1⟩], listaBloqueados := listaBloqueados }

/-- The first two wait for a species of which no unit is left, and the third one for the other. -/
def esperaElUltimo : Estado :=
  { mapaDeTres with
    listaPokenest := [⟨66, [66], ⟨3, 3⟩, 0⟩, ⟨67, [67], ⟨3, 3⟩, 2⟩]
    pcb := fun p => { mapaDeTres.pcb p with
      proximaPokenest := if p = 2 then ⟨67, [67], ⟨3, 3⟩, 2⟩ else ⟨66, [66], ⟨3, 3⟩, 0⟩ } }

theorem liberarBloqueados_iff_ultimo :
    liberarBloqueados esperaElUltimo = (some ⟨⟩, esperaElUltimo.desbloquear) ∧
      esperaElUltimo.desbloquear.listaBloqueados = [0, 1] :=
  ⟨(liberarBloqueados_iff (by decide)).mpr (by decide), by decide⟩

/-- The process ends at the third position, and the second trainer has not been told. -/
theorem liberarBloqueados_cae :
    ((esperanUnidad [0, 1, 2]).listaPokenest.map Pokenest.identificador).Nodup ∧
    (∀ p ∈ (esperanUnidad [0, 1, 2]).listaBloqueados, (esperanUnidad [0, 1, 2]).hayPara p = true) ∧
    (liberarBloqueados (esperanUnidad [0, 1, 2])).1 = none ∧
    (liberarBloqueados (esperanUnidad [0, 1, 2])).2.enviados =
      [(5, .estasDesbloqueado), (7, .estasDesbloqueado)] := by
  decide

end TpSo.Mapa
