import TpSo.Base.Op

/-!
# The maps of the hoja de viaje

`aventuraEntrenador` goes over the maps with a loop that already goes on until all of them are
complete, inside one that counts them: from its second round on there is no map left to complete.
-/

namespace TpSo.Entrenador

/-- The hoja de viaje and the globals of the adventure. -/
structure Travesia where
  /-- Which maps are complete, in the order of the hoja de viaje. -/
  completado : List Bool
  indexProximoMapa : ℕ
  /-- The position of the map; there is none at a `NULL`. -/
  mapaActual : Option ℕ
  mapasCompletos : ℕ
  /-- The maps that `completarMapa` has been called with. -/
  llamadas : List ℕ

namespace Travesia

/-- `list_get(entrenadorActual->mapas, index)`. -/
def listGet (s : Travesia) (index : ℕ) : Option ℕ :=
  if index < s.completado.length then some index else none

def avanzar (s : Travesia) : Travesia :=
  { s with
    completado := s.mapaActual.elim s.completado fun i => s.completado.set i true
    indexProximoMapa := s.indexProximoMapa + 1
    mapaActual := s.listGet (s.indexProximoMapa + 1)
    mapasCompletos := s.mapasCompletos + 1 }

end Travesia

/-- `exito k` is the result of the call number `k`. With a `NULL` map the process ends in
`handShake`. -/
def completarMapa (exito : ℕ → Bool) : Op Travesia Bool := fun s =>
  match s.mapaActual with
  | some i => (some (exito s.llamadas.length), { s with llamadas := s.llamadas ++ [i] })
  | none => (none, s)

def intentarMapa (exito : ℕ → Bool) : Op Travesia PUnit := do
  let seCompleto ← completarMapa exito
  if seCompleto then Op.modify Travesia.avanzar else pure ⟨⟩

/-- `do` … `while (!list_all_satisfy(mapas, estaCompleto))`, given up (never returns) after
`vueltas` rounds. -/
def completarTodos (exito : ℕ → Bool) : ℕ → Op Travesia PUnit
  | 0 => Op.abort
  | vueltas + 1 => do
    intentarMapa exito
    let s ← Op.get id
    if s.completado.all id then pure ⟨⟩ else completarTodos exito vueltas

def porCadaMapa (exito : ℕ → Bool) (vueltas : ℕ) : ℕ → Op Travesia PUnit
  | 0 => pure ⟨⟩
  | cantidad + 1 => do
    completarTodos exito vueltas
    porCadaMapa exito vueltas cantidad

/-- The result is `completoTodo`: whether the trainer is announced as a pokemon master. -/
def aventuraEntrenador (exito : ℕ → Bool) (vueltas : ℕ) : Op Travesia Bool := do
  Op.modify fun s => { s with mapasCompletos := 0, mapaActual := s.listGet s.indexProximoMapa }
  let cantidadDeMapas ← Op.get fun s => s.completado.length
  porCadaMapa exito vueltas cantidadDeMapas
  pure (0 < cantidadDeMapas)

/-- As the trainer starts: `n` maps, none of them complete. -/
structure Travesia.Comienza (n : ℕ) (s : Travesia) : Prop where
  completado : s.completado = List.replicate n false
  indexProximoMapa : s.indexProximoMapa = 0
  llamadas : s.llamadas = []

/-- Every map has been completed once, in order, and the trainer is announced. -/
structure Travesia.Maestro (n : ℕ) (completoTodo : Bool) (s : Travesia) : Prop where
  llamadas : s.llamadas = List.range n
  completado : s.completado = List.replicate n true
  completoTodo : completoTodo = true

/-! ## Map by map -/

def trasMapas (n k : ℕ) : Travesia where
  completado := List.replicate k true ++ List.replicate (n - k) false
  indexProximoMapa := k
  mapaActual := if k < n then some k else none
  mapasCompletos := k
  llamadas := List.range k

section Rondas
variable {exito : ℕ → Bool} {n k vueltas : ℕ}

theorem completarMapa_some {s : Travesia} {i : ℕ} (h : s.mapaActual = some i) :
    completarMapa exito s =
      (some (exito s.llamadas.length), { s with llamadas := s.llamadas ++ [i] }) := by
  simp only [completarMapa, h]

theorem completarMapa_none {s : Travesia} (h : s.mapaActual = none) :
    completarMapa exito s = (none, s) := by
  simp only [completarMapa, h]

theorem intentarMapa_trasMapas (hexito : ∀ k, exito k = true) (h : k < n) :
    intentarMapa exito (trasMapas n k) = (some ⟨⟩, trasMapas n (k + 1)) := by
  have hactual : (trasMapas n k).mapaActual = some k := if_pos h
  rw [intentarMapa, Op.bind_some (completarMapa_some hactual), hexito, if_pos rfl]
  have hset : (List.replicate k true ++ List.replicate (n - k) false).set k true =
      List.replicate (k + 1) true ++ List.replicate (n - (k + 1)) false := by
    obtain ⟨d, hd⟩ : ∃ d, n - k = d + 1 := ⟨n - k - 1, by omega⟩
    have hd' : n - (k + 1) = d := by omega
    rw [hd, hd', List.set_append_right _ _ (by simp), List.length_replicate, Nat.sub_self,
      List.replicate_succ, List.set_cons_zero, List.replicate_succ', List.append_assoc]
    rfl
  have hlen : (List.replicate k true ++ List.replicate (n - k) false).length = n := by
    rw [List.length_append, List.length_replicate, List.length_replicate]
    omega
  unfold Op.modify Travesia.avanzar Travesia.listGet
  dsimp only
  rw [hactual]
  simp only [trasMapas, hset, hlen, Option.elim_some, List.range_succ]

theorem all_trasMapas (h : k ≤ n) : (trasMapas n k).completado.all id = decide (k = n) := by
  unfold trasMapas
  by_cases heq : k = n
  · simp [heq]
  · have hfalta : n - k ≠ 0 := by omega
    simp [heq, List.all_append, hfalta]

theorem completarTodos_trasMapas (hexito : ∀ k, exito k = true) (h : k < n)
    (hvueltas : n ≤ k + vueltas) :
    completarTodos exito vueltas (trasMapas n k) = (some ⟨⟩, trasMapas n n) := by
  induction vueltas generalizing k with
  | zero => omega
  | succ vueltas ih =>
    rw [completarTodos, Op.bind_some (intentarMapa_trasMapas hexito h), Op.get_bind]
    dsimp only [id_eq]
    have hall := all_trasMapas (show k + 1 ≤ n by omega)
    by_cases hfin : k + 1 = n
    · rw [if_pos (by rw [hall, decide_eq_true hfin]), hfin]
      rfl
    · rw [if_neg (by rw [hall, decide_eq_false hfin]; decide)]
      exact ih (by omega) (by omega)

theorem completarTodos_sin_mapa : (completarTodos exito vueltas (trasMapas n n)).1 = none := by
  cases vueltas with
  | zero => rfl
  | succ vueltas =>
    have hnull := @completarMapa_none exito (trasMapas n n) (if_neg (Nat.lt_irrefl n))
    have hintento : intentarMapa exito (trasMapas n n) = (none, trasMapas n n) := by
      rw [intentarMapa, Op.bind_none hnull]
    rw [completarTodos, Op.bind_none hintento]

end Rondas

/-- The adventure ends well if and only if there is one map. -/
theorem aventura_de_un_mapa {exito : ℕ → Bool} {n vueltas : ℕ} {s : Travesia} (hn : 1 ≤ n)
    (hvueltas : n ≤ vueltas) (hexito : ∀ k, exito k = true) (hs : s.Comienza n) :
    Op.Returns (aventuraEntrenador exito vueltas) s (Travesia.Maestro n) ↔ n = 1 := by
  obtain ⟨hcompletado, hindex, hllamadas⟩ := hs
  have hinicio : ({ s with mapasCompletos := 0, mapaActual := s.listGet s.indexProximoMapa } :
      Travesia) = trasMapas n 0 := by
    unfold trasMapas Travesia.listGet
    rw [hcompletado, hindex, hllamadas, List.length_replicate]
    rfl
  have hlen : (trasMapas n 0).completado.length = n := by simp [trasMapas]
  obtain ⟨cantidad, rfl⟩ : ∃ cantidad, n = cantidad + 1 := ⟨n - 1, by omega⟩
  have hprimera := @completarTodos_trasMapas exito (cantidad + 1) 0 vueltas hexito
    (Nat.succ_pos cantidad) (by omega)
  have haventura : aventuraEntrenador exito vueltas s =
      (porCadaMapa exito vueltas cantidad >>= fun _ => pure true)
        (trasMapas (cantidad + 1) (cantidad + 1)) := by
    rw [aventuraEntrenador, Op.modify_bind, hinicio, Op.get_bind, hlen, porCadaMapa, Op.bind_assoc,
      Op.bind_some hprimera]
    simp
  cases cantidad with
  | zero =>
    refine ⟨fun _ => rfl, fun _ => ⟨true, trasMapas 1 1, haventura, rfl, rfl, rfl⟩⟩
  | succ cantidad =>
    constructor
    · rintro ⟨completoTodo, s', hres, -⟩
      have hcae : completarTodos exito vueltas (trasMapas (cantidad + 2) (cantidad + 2)) = (none, _) :=
        Prod.ext completarTodos_sin_mapa rfl
      rw [haventura, porCadaMapa, Op.bind_assoc, Op.bind_none hcae] at hres
      cases hres
    · intro h
      omega

def hojaDe (n : ℕ) : Travesia := ⟨List.replicate n false, 0, none, 0, []⟩

theorem comienza_hojaDe (n : ℕ) : (hojaDe n).Comienza n := ⟨rfl, rfl, rfl⟩

theorem aventura_de_un_mapa_uno :
    Op.Returns (aventuraEntrenador (fun _ => true) 5) (hojaDe 1) (Travesia.Maestro 1) ↔ 1 = 1 :=
  aventura_de_un_mapa (by decide) (by decide) (fun _ => rfl) (comienza_hojaDe 1)

/-- Both maps are completed, and then the trainer goes to a third one. -/
theorem aventura_de_dos_mapas : (hojaDe 2).Comienza 2 ∧
    (aventuraEntrenador (fun _ => true) 5 (hojaDe 2)).1 = none ∧
    (aventuraEntrenador (fun _ => true) 5 (hojaDe 2)).2.llamadas = [0, 1] ∧
    (aventuraEntrenador (fun _ => true) 5 (hojaDe 2)).2.completado = [true, true] ∧
    (aventuraEntrenador (fun _ => true) 5 (hojaDe 2)).2.mapaActual = none := by
  refine ⟨comienza_hojaDe 2, ?_⟩
  decide

end TpSo.Entrenador
