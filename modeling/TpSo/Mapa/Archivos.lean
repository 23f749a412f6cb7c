import TpSo.Base.Run
import TpSo.Mapa.Almacen

/-!
# The files of the pokemons

A run of connections, captures and releases, with anything in between that leaves the store alone.
A trainer plays from its connection to its release, and its `Dir de Bill` is its own. `Guardado` is
the ledger: the files a species had at first are in its directory or with a trainer that plays.
-/

namespace TpSo.Mapa

open Function (update)

namespace Estado

def camino (m : Estado) (p : ℕ) : Nombre := (m.pcb p).pathEntrenador

def lista (m : Estado) (p : ℕ) : ℕ := (m.pcb p).listaRecursos

def bolsa (m : Estado) (p : ℕ) : List Nombre := m.dirDeBill (m.camino p)

def capturados (m : Estado) (p : ℕ) : List UInt8 := m.recursos (m.lista p)

end Estado

/-- A map and the trainers that play in it. -/
structure Reparto where
  mapa : Estado
  jugando : List ℕ

inductive Movimiento where
  | conecta (sockfd : ℤ) (pathEntrenador : Nombre) (primerObjetivo : UInt8)
  | captura (sockfd : ℤ) (r : Recibido)
  | libera (q : ℕ)
  | ajeno

/-- `q` is a `t_pcb` of the trainer at `p`: it or a copy. -/
def Mismo (m : Estado) (p q : ℕ) : Prop := m.camino q = m.camino p ∧ m.lista q = m.lista p

/-- Nothing of the store, of a trainer or of what it holds has changed. -/
structure Ajeno (m m' : Estado) : Prop where
  almacen : m'.toAlmacen = m.toAlmacen
  libre : m.libre ≤ m'.libre
  camino : ∀ p < m.libre, m'.camino p = m.camino p
  lista : ∀ p < m.libre, m'.lista p = m.lista p
  recursos : ∀ l < m.libre, m'.recursos l = m.recursos l

inductive PasoReparto : Reparto → Movimiento → Reparto → Prop where
  | conecta {m m' : Estado} {js : List ℕ} {sockfd : ℤ} {path : Nombre} {id : UInt8} :
      (∀ p ∈ js, m.camino p ≠ path) → nuevoEntrenadorConectado sockfd path id m = (some ⟨⟩, m') →
      PasoReparto ⟨m, js⟩ (.conecta sockfd path id) ⟨m', m.libre :: js⟩
  | captura {m m' : Estado} {js : List ℕ} {sockfd k : ℤ} {r : Recibido} {p q : ℕ} :
      p ∈ js → m.getPcbBySockFdListos sockfd = some q → Mismo m p q → r.copia = true →
      capturarPokemon sockfd r m = (some k, m') →
      PasoReparto ⟨m, js⟩ (.captura sockfd r) ⟨m', js⟩
  | libera {m m' : Estado} {js : List ℕ} {p q : ℕ} :
      p ∈ js → Mismo m p q → liberarRecursosBloqueados q m = (some ⟨⟩, m') →
      PasoReparto ⟨m, js⟩ (.libera q) ⟨m', js.erase p⟩
  | ajeno {m m' : Estado} {js : List ℕ} : Ajeno m m' → PasoReparto ⟨m, js⟩ .ajeno ⟨m', js⟩

def Almacen.hayUnidad (a : Almacen) (id : UInt8) : Bool :=
  (a.getPokenestById id).any fun p => p.identificador = id ∧ 0 < p.cant

/-- A capture that gives a unit is acknowledged, and no file of another species that the trainer
holds starts with the name of a species that it gives back. -/
def CapturaYDevuelve (s : Reparto) : Movimiento → Prop
  | .captura _ r => r.pokemon.any s.mapa.hayUnidad = true → r.acuse = true
  | .libera q => ∀ id ∈ s.mapa.capturados q, ∀ e ∈ s.mapa.especie id, ∀ f ∈ s.mapa.bolsa q,
      e <+: f → ArchivoDe e f
  | _ => True

/-! ## The ledger -/

def enBolsas (m : Estado) (s : Nombre) (js : List ℕ) : List Nombre :=
  js.flatMap fun p => deEspecie s (m.bolsa p)

structure Guardado (a₀ : Almacen) (m : Estado) (js : List ℕ) : Prop where
  fichas : m.fichas = a₀.fichas
  frescos : ∀ p ∈ js, p < m.libre ∧ m.lista p < m.libre
  caminos : (js.map m.camino).Nodup
  listas : (js.map m.lista).Nodup
  conocidos : ∀ p ∈ js, ∀ id ∈ m.capturados p, m.hayPokenest id = true
  bolsas : ∀ p ∈ js, ∀ s ∈ m.especies, (deEspecie s (m.bolsa p)).length = m.tiene s (m.capturados p)
  cant : ∀ p ∈ m.listaPokenest, p.cant = (m.pokeNests p.species).length
  lugar : ∀ s ∈ m.especies, (m.pokeNests s ++ enBolsas m s js).Perm (a₀.pokeNests s)
  ajenas : ∀ path, (∀ p ∈ js, m.camino p ≠ path) → ∀ s ∈ m.especies,
    deEspecie s (m.dirDeBill path) = []

/-- The store at first, with the pokenests just loaded. -/
structure Surtido (a : Almacen) : Prop where
  especies : a.especies.Nodup
  archivos : ∀ s ∈ a.especies, (a.pokeNests s).Nodup
  nombres : ∀ s ∈ a.especies, ∀ f ∈ a.pokeNests s, ArchivoDe s f
  cant : ∀ p ∈ a.listaPokenest, p.cant = (a.pokeNests p.species).length
  bolsas : ∀ path, ∀ s ∈ a.especies, ∀ f ∈ a.dirDeBill path, ¬ s <+: f

section Guardado
variable {a₀ : Almacen} {m m' : Estado} {js : List ℕ}

theorem enBolsas_congr {s : Nombre} (h : ∀ p ∈ js, m'.bolsa p = m.bolsa p) :
    enBolsas m' s js = enBolsas m s js := by
  unfold enBolsas
  induction js with
  | nil => rfl
  | cons p js ih =>
    rw [List.flatMap_cons, List.flatMap_cons, h p (by simp), ih fun q hq => h q (by simp [hq])]

theorem Guardado.ajeno (h : Guardado a₀ m js) (ha : Ajeno m m') : Guardado a₀ m' js := by
  have hcamino : ∀ p ∈ js, m'.camino p = m.camino p := fun p hp => ha.camino p (h.frescos p hp).1
  have hlista : ∀ p ∈ js, m'.lista p = m.lista p := fun p hp => ha.lista p (h.frescos p hp).1
  have hcap : ∀ p ∈ js, m'.capturados p = m.capturados p := by
    intro p hp
    unfold Estado.capturados
    rw [hlista p hp, ha.recursos _ (h.frescos p hp).2]
  have hbolsa : ∀ p ∈ js, m'.bolsa p = m.bolsa p := by
    intro p hp
    unfold Estado.bolsa
    rw [hcamino p hp, ha.almacen]
  constructor
  · rw [ha.almacen]
    exact h.fichas
  · intro p hp
    have hlt := h.frescos p hp
    rw [hlista p hp]
    exact ⟨hlt.1.trans_le ha.libre, hlt.2.trans_le ha.libre⟩
  · rw [List.map_congr_left hcamino]
    exact h.caminos
  · rw [List.map_congr_left hlista]
    exact h.listas
  · intro p hp
    rw [ha.almacen, hcap p hp]
    exact h.conocidos p hp
  · intro p hp
    rw [ha.almacen, hcap p hp, hbolsa p hp]
    exact h.bolsas p hp
  · rw [ha.almacen]
    exact h.cant
  · intro s hs
    rw [ha.almacen] at hs ⊢
    rw [enBolsas_congr hbolsa]
    exact h.lugar s hs
  · intro path hpath
    rw [ha.almacen]
    exact h.ajenas path fun p hp => hcamino p hp ▸ hpath p hp

theorem Guardado.alta (h : Guardado a₀ m js) {p : ℕ} (hp : p < m.libre) (hl : m.lista p < m.libre)
    (hcamino : ∀ q ∈ js, m.camino q ≠ m.camino p) (hlista : ∀ q ∈ js, m.lista q ≠ m.lista p)
    (hcap : m.capturados p = []) : Guardado a₀ m (p :: js) := by
  have hvacia : ∀ s ∈ m.especies, deEspecie s (m.bolsa p) = [] := h.ajenas (m.camino p) hcamino
  constructor
  · exact h.fichas
  · exact List.forall_mem_cons.mpr ⟨⟨hp, hl⟩, h.frescos⟩
  · rw [List.map_cons, List.nodup_cons]
    refine ⟨?_, h.caminos⟩
    intro hmem
    obtain ⟨q, hq, he⟩ := List.mem_map.mp hmem
    exact hcamino q hq he
  · rw [List.map_cons, List.nodup_cons]
    refine ⟨?_, h.listas⟩
    intro hmem
    obtain ⟨q, hq, he⟩ := List.mem_map.mp hmem
    exact hlista q hq he
  · apply List.forall_mem_cons.mpr ⟨?_, h.conocidos⟩
    rw [hcap]
    simp
  · apply List.forall_mem_cons.mpr ⟨?_, h.bolsas⟩
    intro s hs
    rw [hvacia s hs, hcap]
    rfl
  · exact h.cant
  · intro s hs
    unfold enBolsas
    rw [List.flatMap_cons, hvacia s hs, List.nil_append]
    exact h.lugar s hs
  · intro path hpath
    exact h.ajenas path fun q hq => hpath q (by simp [hq])

end Guardado

/-! ## Connections -/

theorem ajeno_nuevoEntrenadorConectado {m m' : Estado} {sockfd : ℤ} {path : Nombre} {id : UInt8}
    (h : nuevoEntrenadorConectado sockfd path id m = (some ⟨⟩, m')) : Ajeno m m' ∧
      m'.camino m.libre = path ∧ m'.lista m.libre = m.libre ∧ m'.recursos m.libre = [] ∧
      m.libre < m'.libre := by
  unfold nuevoEntrenadorConectado at h
  split at h
  · next proxima _ =>
    obtain ⟨_, rfl⟩ := Op.some_inj h
    refine ⟨⟨rfl, Nat.le_succ _, ?_, ?_, ?_⟩, ?_, ?_, ?_, Nat.lt_succ_self _⟩
    · intro p hp
      unfold Estado.camino
      dsimp only
      rw [Function.update_of_ne hp.ne]
    · intro p hp
      unfold Estado.lista
      dsimp only
      rw [Function.update_of_ne hp.ne]
    · exact fun l hl => Function.update_of_ne hl.ne _ _
    · unfold Estado.camino
      dsimp only
      rw [Function.update_self]
    · unfold Estado.lista
      dsimp only
      rw [Function.update_self]
    · exact Function.update_self ..
  · cases h

theorem Guardado.conecta {a₀ : Almacen} {m m' : Estado} {js : List ℕ} {sockfd : ℤ} {path : Nombre}
    {id : UInt8} (h : Guardado a₀ m js) (hpath : ∀ p ∈ js, m.camino p ≠ path)
    (he : nuevoEntrenadorConectado sockfd path id m = (some ⟨⟩, m')) :
    Guardado a₀ m' (m.libre :: js) := by
  obtain ⟨ha, hcamino, hlista, hrec, hlt⟩ := ajeno_nuevoEntrenadorConectado he
  apply (h.ajeno ha).alta hlt
  · rwa [hlista]
  · intro q hq
    rw [hcamino, ha.camino q (h.frescos q hq).1]
    exact hpath q hq
  · intro q hq
    rw [hlista, ha.lista q (h.frescos q hq).1]
    exact (h.frescos q hq).2.ne
  · rw [Estado.capturados, hlista, hrec]

/-! ## Captures -/

section Modificar
variable {m : Estado} {q : ℕ} {g : Pcb → Pcb}

theorem camino_modificarPcb (hg : ∀ e, (g e).pathEntrenador = e.pathEntrenador) :
    (modificarPcb q g m).camino = m.camino := by
  funext x
  unfold modificarPcb Estado.camino
  dsimp only
  by_cases hx : x = q
  · subst hx
    rw [Function.update_self, hg]
  · rw [Function.update_of_ne hx]

theorem lista_modificarPcb (hg : ∀ e, (g e).listaRecursos = e.listaRecursos) :
    (modificarPcb q g m).lista = m.lista := by
  funext x
  unfold modificarPcb Estado.lista
  dsimp only
  by_cases hx : x = q
  · subst hx
    rw [Function.update_self, hg]
  · rw [Function.update_of_ne hx]

end Modificar

/-- The trainer at `p` has been given the file `f` of the pokenest with the identifier. -/
structure Entrega (m m' : Estado) (p : ℕ) (id : UInt8) (s f : Nombre) (resto : List Nombre) :
    Prop where
  quedan : m.pokeNests s = f :: resto
  pokeNests : m'.pokeNests = update m.pokeNests s resto
  dirDeBill : m'.dirDeBill = update m.dirDeBill (m.camino p) ((m.bolsa p).insert f)
  listaPokenest : m'.listaPokenest = sumarCant id (-1) m.listaPokenest
  recursos : m'.recursos = update m.recursos (m.lista p) (m.capturados p ++ [id])
  camino : m'.camino = m.camino
  lista : m'.lista = m.lista
  libre : m'.libre = m.libre

section Captura
variable {a₀ : Almacen} {m m' : Estado} {js : List ℕ} {sockfd k : ℤ} {r : Recibido} {p q : ℕ}
  {id : UInt8} {s f : Nombre} {resto : List Nombre}

theorem copiarADirDeBill_of_mem {a : Almacen} (path : Nombre) (h : f ∈ a.pokeNests s) :
    a.copiarADirDeBill path s f =
      { a with dirDeBill := update a.dirDeBill path ((a.dirDeBill path).insert f) } := if_pos h

theorem entrega_entregarPokemon {P : Pokenest} (hq : Mismo m p q) (hcopia : r.copia = true)
    (hacuse : r.acuse = true) (hnest : m.pokeNests P.species = f :: resto)
    (h : entregarPokemon sockfd q id P r m = (some k, m')) :
    Entrega m m' p id P.species f resto := by
  have harchivo : m.adquirirPathPokemonEnEspecifico P.species = f := by
    rw [Almacen.adquirirPathPokemonEnEspecifico, hnest]
    rfl
  have hmem : f ∈ ((m.enviar sockfd (.teDoyElPokemon P.species f)).toAlmacen.conCant id
      (-1)).pokeNests P.species := by
    change f ∈ m.pokeNests P.species
    simp [hnest]
  unfold entregarPokemon at h
  dsimp only at h
  rw [harchivo, if_pos hcopia, if_pos hacuse, copiarADirDeBill_of_mem _ hmem] at h
  obtain ⟨_, rfl⟩ := Op.some_inj h
  have hcamino : (m.pcb q).pathEntrenador = m.camino p := hq.1
  have hlista : (m.pcb q).listaRecursos = m.lista p := hq.2
  constructor
  · exact hnest
  · change update m.pokeNests P.species ((m.pokeNests P.species).erase f) = _
    rw [hnest, List.erase_cons_head]
  · change update m.dirDeBill (m.pcb q).pathEntrenador
      ((m.dirDeBill (m.pcb q).pathEntrenador).insert f) = _
    rw [hcamino]
    rfl
  · rfl
  · change update m.recursos (m.pcb q).listaRecursos (m.recursos (m.pcb q).listaRecursos ++ [id]) = _
    rw [hlista]
    rfl
  · exact camino_modificarPcb fun _ => rfl
  · exact lista_modificarPcb fun _ => rfl
  · rfl

theorem Entrega.fichas (h : Entrega m m' p id s f resto) : m'.fichas = m.fichas := by
  unfold Almacen.fichas
  rw [h.listaPokenest, sumarCant_fichas]

theorem Entrega.bolsa_otro (h : Entrega m m' p id s f resto) {x : ℕ} (hx : m.camino x ≠ m.camino p) :
    m'.bolsa x = m.bolsa x := by
  unfold Estado.bolsa
  rw [h.camino, h.dirDeBill, Function.update_of_ne hx]

theorem Entrega.capturados_otro (h : Entrega m m' p id s f resto) {x : ℕ}
    (hx : m.lista x ≠ m.lista p) : m'.capturados x = m.capturados x := by
  unfold Estado.capturados
  rw [h.lista, h.recursos, Function.update_of_ne hx]

theorem Entrega.capturados (h : Entrega m m' p id s f resto) :
    m'.capturados p = m.capturados p ++ [id] := by
  unfold Estado.capturados
  rw [h.lista, h.recursos, Function.update_self]
  rfl

theorem Entrega.bolsa (h : Entrega m m' p id s f resto) (hf : f ∉ m.bolsa p) :
    m'.bolsa p = f :: m.bolsa p := by
  unfold Estado.bolsa
  rw [h.camino, h.dirDeBill, Function.update_self, List.insert_of_not_mem hf]
  rfl

theorem deEspecie_cons (s : Nombre) (f : Nombre) (l : List Nombre) :
    deEspecie s (f :: l) = (if ArchivoDe s f then [f] else []) ++ deEspecie s l := by
  unfold deEspecie
  rw [List.filter_cons]
  split <;> simp_all

end Captura

/-! ## A place for every file -/

section Lugar
variable {a₀ : Almacen} {m : Estado} {js : List ℕ} {p x : ℕ}

theorem Guardado.camino_ne (h : Guardado a₀ m js) (hp : p ∈ js) (hx : x ∈ js) (hne : x ≠ p) :
    m.camino x ≠ m.camino p := fun he => hne (List.inj_on_of_nodup_map h.caminos hx hp he)

theorem Guardado.lista_ne (h : Guardado a₀ m js) (hp : p ∈ js) (hx : x ∈ js) (hne : x ≠ p) :
    m.lista x ≠ m.lista p := fun he => hne (List.inj_on_of_nodup_map h.listas hx hp he)

theorem Guardado.nodup (h : Guardado a₀ m js) : js.Nodup := List.Nodup.of_map _ h.caminos

theorem enBolsas_perm {s : Nombre} (hp : p ∈ js) :
    (enBolsas m s js).Perm (deEspecie s (m.bolsa p) ++ enBolsas m s (js.erase p)) := by
  have h := (List.perm_cons_erase hp).flatMap_right fun p => deEspecie s (m.bolsa p)
  rwa [List.flatMap_cons] at h

theorem Guardado.nodup_lugar (h : Guardado a₀ m js) (h₀ : Surtido a₀) {s : Nombre}
    (hs : s ∈ m.especies) : (m.pokeNests s ++ enBolsas m s js).Nodup := by
  have hs₀ : s ∈ a₀.especies := by rwa [← Almacen.especies_congr h.fichas]
  exact (h.lugar s hs).nodup_iff.mpr (h₀.archivos s hs₀)

end Lugar

section Pasos
variable {a₀ : Almacen} {m m' : Estado} {js : List ℕ} {p q : ℕ} {id : UInt8} {s f : Nombre}
  {resto : List Nombre}

theorem Guardado.archivoDe (h : Guardado a₀ m js) (h₀ : Surtido a₀) (hs : s ∈ m.especies)
    (hf : f ∈ m.pokeNests s) : ArchivoDe s f := by
  have hs₀ : s ∈ a₀.especies := by rwa [← Almacen.especies_congr h.fichas]
  apply h₀.nombres s hs₀ f
  exact (h.lugar s hs).subset (List.mem_append_left _ hf)

theorem enBolsas_entrega (hp : p ∈ js) (h : Guardado a₀ m js) (hent : Entrega m m' p id s f resto)
    (hf : f ∉ m.bolsa p) (s' : Nombre) :
    (enBolsas m' s' js).Perm ((if ArchivoDe s' f then [f] else []) ++ enBolsas m s' js) := by
  have hotros : enBolsas m' s' (js.erase p) = enBolsas m s' (js.erase p) := by
    apply enBolsas_congr
    intro x hx
    have hx := h.nodup.mem_erase_iff.mp hx
    exact hent.bolsa_otro (h.camino_ne hp hx.2 hx.1)
  have hperm := (enBolsas_perm (m := m) (s := s') hp).symm
  calc
    (enBolsas m' s' js).Perm (deEspecie s' (m'.bolsa p) ++ enBolsas m' s' (js.erase p)) :=
      enBolsas_perm hp
    _ = (if ArchivoDe s' f then [f] else []) ++
        (deEspecie s' (m.bolsa p) ++ enBolsas m s' (js.erase p)) := by
      rw [hotros, hent.bolsa hf, deEspecie_cons, List.append_assoc]
    List.Perm _ _ := hperm.append_left _

/-- A capture moves a file from its pokenest to the trainer. -/
theorem Guardado.captura (h : Guardado a₀ m js) (h₀ : Surtido a₀) (hp : p ∈ js)
    (hent : Entrega m m' p id s f resto) (hid : m.hayPokenest id = true)
    (hesp : m.especie id = some s) : Guardado a₀ m' js := by
  have hs : s ∈ m.especies := Almacen.mem_especies_of_especie hesp
  have hfm : f ∈ m.pokeNests s := by simp [hent.quedan]
  have hfs : ArchivoDe s f := h.archivoDe h₀ hs hfm
  have hiff : ∀ s', ArchivoDe s' f ↔ s' = s := fun s' =>
    ⟨fun h' => h'.unica hfs, fun he => he ▸ hfs⟩
  have hfp : f ∉ m.bolsa p := by
    intro hf
    have hmem : f ∈ enBolsas m s js := List.mem_flatMap.mpr ⟨p, hp, mem_deEspecie.mpr ⟨hf, hfs⟩⟩
    exact (List.disjoint_of_nodup_append (h.nodup_lugar h₀ hs)) hfm hmem
  have hfichas : m'.fichas = m.fichas := hent.fichas
  constructor
  · rw [hfichas, h.fichas]
  · intro x hx
    rw [hent.lista, hent.libre]
    exact h.frescos x hx
  · rw [hent.camino]
    exact h.caminos
  · rw [hent.lista]
    exact h.listas
  · intro x hx id' hid'
    rw [Almacen.hayPokenest_congr hfichas]
    by_cases hxp : x = p
    · subst hxp
      rw [hent.capturados] at hid'
      cases List.mem_append.mp hid' with
      | inl hid' => exact h.conocidos x hx id' hid'
      | inr hid' => rwa [List.mem_singleton.mp hid']
    · rw [hent.capturados_otro (h.lista_ne hp hx hxp)] at hid'
      exact h.conocidos x hx id' hid'
  · intro x hx s' hs'
    rw [Almacen.especies_congr hfichas] at hs'
    rw [Almacen.tiene_congr hfichas]
    have hold := h.bolsas x hx s' hs'
    by_cases hxp : x = p
    · subst hxp
      rw [hent.capturados, hent.bolsa hfp, deEspecie_cons, List.length_append, hold,
        Almacen.tiene, Almacen.tiene, List.countP_append, List.countP_singleton, hesp]
      by_cases he : s' = s
      · rw [if_pos ((hiff s').mpr he), if_pos (by simp [he])]
        exact Nat.add_comm _ _
      · rw [if_neg fun h' => he ((hiff s').mp h'), if_neg (by simpa using fun h' => he h'.symm)]
        exact Nat.add_comm _ _
    · rw [hent.capturados_otro (h.lista_ne hp hx hxp), hent.bolsa_otro (h.camino_ne hp hx hxp)]
      exact hold
  · intro P hP
    rw [hent.listaPokenest] at hP
    have hnd : m.especies.Nodup := by
      rw [Almacen.especies_congr h.fichas]
      exact h₀.especies
    obtain ⟨P₀, hP₀, hsp, hc⟩ := Almacen.mem_conCant hnd hid hP
    have hold := h.cant P₀ hP₀
    rw [hc, hold, hsp, hesp, hent.pokeNests]
    by_cases he : P.species = s
    · rw [he, Function.update_self, if_pos rfl, hent.quedan, List.length_cons]
      push_cast
      ring
    · rw [Function.update_of_ne he, if_neg fun h' => he (Option.some.inj h').symm, add_zero]
  · intro s' hs'
    rw [Almacen.especies_congr hfichas] at hs'
    have hperm := enBolsas_entrega hp h hent hfp s'
    apply List.Perm.trans _ (h.lugar s' hs')
    by_cases he : s' = s
    · subst he
      rw [if_pos hfs] at hperm
      rw [hent.pokeNests, Function.update_self, hent.quedan]
      apply (hperm.append_left resto).trans
      exact List.perm_middle
    · rw [if_neg fun h' => he ((hiff s').mp h'), List.nil_append] at hperm
      rw [hent.pokeNests, Function.update_of_ne he]
      exact hperm.append_left _
  · intro path hpath s' hs'
    rw [Almacen.especies_congr hfichas] at hs'
    rw [hent.camino] at hpath
    rw [hent.dirDeBill, Function.update_of_ne (hpath p hp).symm]
    exact h.ajenas path hpath s' hs'

/-- The books of a trainer that is about to give everything back. -/
theorem Guardado.cuadra (h : Guardado a₀ m js) (h₀ : Surtido a₀) (hp : p ∈ js)
    (hprop : ∀ id ∈ m.capturados p, ∀ e, m.especie id = some e → ∀ f ∈ m.bolsa p, e <+: f →
      ArchivoDe e f) : m.Cuadra (m.camino p) (m.capturados p) := by
  constructor
  · rw [Almacen.especies_congr h.fichas]
    exact h₀.especies
  · exact h.conocidos p hp
  · intro s hs
    have hperm := (enBolsas_perm (m := m) (s := s) hp).append_left (m.pokeNests s)
    rw [← List.append_assoc] at hperm
    exact (List.nodup_append.mp (hperm.nodup_iff.mp (h.nodup_lugar h₀ hs))).1
  · exact hprop
  · intro P hP
    have hs : P.species ∈ m.especies := List.mem_map_of_mem hP
    rw [Almacen.entreAmbos, List.length_append, h.cant P hP]
    push_cast
    exact congrArg _ (congrArg _ (h.bolsas p hp P.species hs).symm)

/-- A release moves all that a trainer has to the pokenests. -/
theorem Guardado.libera (h : Guardado a₀ m js) (hp : p ∈ js) {a' : Almacen}
    (hdev : Almacen.Devuelto (m.camino p) m.toAlmacen a') (hfin : a'.Cuadra (m.camino p) [])
    (hnada : ∀ id ∈ m.capturados p, ∀ s, m.especie id = some s →
      deEspecie s (a'.dirDeBill (m.camino p)) = []) :
    Guardado a₀ { m with toAlmacen := a' } (js.erase p) := by
  have hvacia : ∀ s ∈ m.especies, deEspecie s (a'.dirDeBill (m.camino p)) = [] := by
    intro s hs
    by_cases hid : ∃ id ∈ m.capturados p, m.especie id = some s
    · obtain ⟨id, hid, he⟩ := hid
      exact hnada id hid s he
    · have hcero : m.tiene s (m.capturados p) = 0 := by
        apply List.countP_eq_zero.mpr
        intro id hid' he
        exact hid ⟨id, hid', of_decide_eq_true he⟩
      have hnil := List.length_eq_zero_iff.mp ((h.bolsas p hp s hs).trans hcero)
      apply List.filter_eq_nil_iff.mpr
      intro f hf
      exact List.filter_eq_nil_iff.mp hnil f (hdev.bolsa hf)
  have hsub : ∀ x ∈ js.erase p, x ∈ js := fun x hx => List.mem_of_mem_erase hx
  have hotro : ∀ x ∈ js.erase p, m.camino x ≠ m.camino p := by
    intro x hx
    have hx := h.nodup.mem_erase_iff.mp hx
    exact h.camino_ne hp hx.2 hx.1
  have hbolsa : ∀ x ∈ js.erase p, a'.dirDeBill (m.camino x) = m.bolsa x := fun x hx =>
    hdev.otros _ (hotro x hx)
  constructor
  · exact hdev.fichas.trans h.fichas
  · exact fun x hx => h.frescos x (hsub x hx)
  · exact h.caminos.sublist (List.erase_sublist.map _)
  · exact h.listas.sublist (List.erase_sublist.map _)
  · intro x hx id hid
    change a'.hayPokenest id = true
    rw [Almacen.hayPokenest_congr hdev.fichas]
    exact h.conocidos x (hsub x hx) id hid
  · intro x hx s hs
    change s ∈ a'.especies at hs
    rw [Almacen.especies_congr hdev.fichas] at hs
    change (deEspecie s (a'.dirDeBill (m.camino x))).length = a'.tiene s (m.capturados x)
    rw [hbolsa x hx, Almacen.tiene_congr hdev.fichas]
    exact h.bolsas x (hsub x hx) s hs
  · intro P hP
    have hc := hfin.cant P hP
    have hs : P.species ∈ m.especies := by
      rw [← Almacen.especies_congr hdev.fichas]
      exact List.mem_map_of_mem hP
    rw [Almacen.entreAmbos, hvacia _ hs, List.append_nil] at hc
    simpa [Almacen.tiene] using hc
  · intro s hs
    change s ∈ a'.especies at hs
    rw [Almacen.especies_congr hdev.fichas] at hs
    have hambos := hdev.entreAmbos s hs
    rw [Almacen.entreAmbos, hvacia s hs, List.append_nil] at hambos
    have hresto : enBolsas { m with toAlmacen := a' } s (js.erase p) =
        enBolsas m s (js.erase p) := enBolsas_congr hbolsa
    rw [hresto]
    apply (hambos.append_right _).trans
    apply List.Perm.trans _ (h.lugar s hs)
    rw [Almacen.entreAmbos, List.append_assoc]
    exact (enBolsas_perm hp).symm.append_left _
  · intro path hpath s hs
    change s ∈ a'.especies at hs
    rw [Almacen.especies_congr hdev.fichas] at hs
    change deEspecie s (a'.dirDeBill path) = []
    by_cases he : path = m.camino p
    · rw [he]
      exact hvacia s hs
    · rw [hdev.otros path he]
      apply h.ajenas path _ s hs
      intro x hx
      by_cases hxp : x = p
      · subst hxp
        exact fun h' => he h'.symm
      · exact hpath x (h.nodup.mem_erase_iff.mpr ⟨hxp, hx⟩)

end Pasos

/-! ## Whole runs -/

theorem Guardado.pasoCaptura {a₀ : Almacen} {m m' : Estado} {js : List ℕ} {sockfd k : ℤ}
    {r : Recibido} {p q : ℕ} (h : Guardado a₀ m js) (h₀ : Surtido a₀) (hp : p ∈ js)
    (hsock : m.getPcbBySockFdListos sockfd = some q) (hq : Mismo m p q) (hcopia : r.copia = true)
    (hreg : CapturaYDevuelve ⟨m, js⟩ (.captura sockfd r))
    (he : capturarPokemon sockfd r m = (some k, m')) : Guardado a₀ m' js := by
  unfold capturarPokemon at he
  split at he
  · obtain ⟨_, rfl⟩ := Op.some_inj he
    exact h
  · next id hpok =>
    rw [hsock] at he
    dsimp only at he
    split at he
    · next q' P hq' hP =>
      obtain rfl := Option.some.inj hq'
      split at he
      · obtain ⟨_, rfl⟩ := Op.some_inj he
        exact h
      · next hid =>
        rw [ne_eq, not_not] at hid
        split at he
        · next hcant =>
          have hmem := Almacen.mem_of_getPokenestById hP
          have hacuse : r.acuse = true := by
            apply hreg
            rw [hpok, Option.any_some, Almacen.hayUnidad, hP, Option.any_some]
            exact decide_eq_true ⟨hid, hcant⟩
          rw [h.cant P hmem] at hcant
          obtain ⟨f, resto, hnest⟩ := List.exists_cons_of_ne_nil
            (List.ne_nil_of_length_pos (Int.natCast_pos.mp hcant))
          have hent := entrega_entregarPokemon hq hcopia hacuse hnest he
          apply h.captura h₀ hp hent
          · exact List.any_eq_true.mpr ⟨P, hmem, decide_eq_true hid⟩
          · rw [Almacen.especie, hP, Option.map_some]
        · obtain ⟨_, rfl⟩ := Op.some_inj he
          exact h.ajeno ⟨rfl, le_rfl, fun _ _ => rfl, fun _ _ => rfl, fun _ _ => rfl⟩
    · cases he

theorem Guardado.pasoLibera {a₀ : Almacen} {m m' : Estado} {js : List ℕ} {p q : ℕ}
    (h : Guardado a₀ m js) (h₀ : Surtido a₀) (hp : p ∈ js) (hq : Mismo m p q)
    (hreg : CapturaYDevuelve ⟨m, js⟩ (.libera q))
    (he : liberarRecursosBloqueados q m = (some ⟨⟩, m')) : Guardado a₀ m' (js.erase p) := by
  have hcap : m.capturados q = m.capturados p := by rw [Estado.capturados, hq.2, Estado.capturados]
  have hbolsa : m.bolsa q = m.bolsa p := by rw [Estado.bolsa, hq.1, Estado.bolsa]
  have hprop : ∀ id ∈ m.capturados p, ∀ e, m.especie id = some e → ∀ f ∈ m.bolsa p, e <+: f →
      ArchivoDe e f := by
    rw [← hcap, ← hbolsa]
    exact hreg
  obtain ⟨a', ha', hfin, hdev, hnada⟩ := (h.cuadra h₀ hp hprop).reintegrarRecursos
  have hcorre : reintegrarRecursos (m.pcb q).pathEntrenador (m.recursos (m.pcb q).listaRecursos)
      m.toAlmacen = (some ⟨⟩, a') := by
    change reintegrarRecursos (m.camino q) (m.capturados q) m.toAlmacen = _
    rw [hq.1, hcap, ha']
  rw [liberarRecursosBloqueados, Op.get_bind] at he
  dsimp only [id_eq] at he
  rw [Op.zoom_eq hcorre] at he
  obtain ⟨_, rfl⟩ := Op.some_inj he
  exact h.libera hp hdev hfin hnada

theorem Guardado.paso {a₀ : Almacen} (h₀ : Surtido a₀) {s s' : Reparto} {e : Movimiento}
    (h : Guardado a₀ s.mapa s.jugando) (hstep : PasoReparto s e s') (hreg : CapturaYDevuelve s e) :
    Guardado a₀ s'.mapa s'.jugando := by
  cases hstep with
  | conecta hpath he => exact h.conecta hpath he
  | captura hp hsock hq hcopia he => exact h.pasoCaptura h₀ hp hsock hq hcopia hreg he
  | libera hp hq he => exact h.pasoLibera h₀ hp hq hreg he
  | ajeno ha => exact h.ajeno ha

/-- A map that has just loaded its pokenests, with no file of them in a `Dir de Bill`. -/
structure MapaNuevo (m : Estado) : Prop where
  carga : ∃ a : Almacen, a.listaPokenest = [] ∧ m.toAlmacen = a.cargarPokenest
  directorios : (m.directorios.map Directorio.species).Nodup
  sinRepetir : ∀ d ∈ m.directorios, (m.pokeNests d.species).Nodup
  nombres : ∀ d ∈ m.directorios, ∀ f ∈ m.pokeNests d.species, ArchivoDe d.species f
  bolsas : ∀ path, ∀ d ∈ m.directorios, ∀ f ∈ m.dirDeBill path, ¬ d.species <+: f

theorem MapaNuevo.especies {m : Estado} (h : MapaNuevo m) :
    m.especies = m.directorios.map Directorio.species := by
  obtain ⟨a, ha, he⟩ := h.carga
  rw [he, Almacen.especies, Almacen.cargarPokenest, ha, List.nil_append, List.map_map]
  rfl

theorem MapaNuevo.surtido {m : Estado} (h : MapaNuevo m) : Surtido m.toAlmacen := by
  have hesp := h.especies
  constructor
  · rw [hesp]
    exact h.directorios
  · intro s hs
    rw [hesp] at hs
    obtain ⟨d, hd, rfl⟩ := List.mem_map.mp hs
    exact h.sinRepetir d hd
  · intro s hs
    rw [hesp] at hs
    obtain ⟨d, hd, rfl⟩ := List.mem_map.mp hs
    exact h.nombres d hd
  · obtain ⟨a, ha, he⟩ := h.carga
    rw [he, Almacen.cargarPokenest, ha]
    intro p hp
    obtain ⟨d, _, rfl⟩ := List.mem_map.mp hp
    rfl
  · intro path s hs
    rw [hesp] at hs
    obtain ⟨d, hd, rfl⟩ := List.mem_map.mp hs
    exact h.bolsas path d hd

theorem Surtido.guardado {m : Estado} (h : Surtido m.toAlmacen) :
    Guardado m.toAlmacen m [] := by
  constructor
  · rfl
  · simp
  · exact List.nodup_nil
  · exact List.nodup_nil
  · simp
  · simp
  · exact h.cant
  · intro s _
    rw [enBolsas, List.flatMap_nil, List.append_nil]
  · intro path _ s hs
    apply List.filter_eq_nil_iff.mpr
    intro f hf he
    exact h.bolsas path s hs f hf (of_decide_eq_true he).1

inductive Lugar where
  | pokeNest (species : Nombre)
  | dirDeBill (path : Nombre)

def EstaEn (a : Almacen) (f : Nombre) : Lugar → Prop
  | .pokeNest s => s ∈ a.especies ∧ f ∈ a.pokeNests s
  | .dirDeBill path => f ∈ a.dirDeBill path

section Unico
variable {a₀ : Almacen} {m : Estado} {js : List ℕ} {p : ℕ} {s f : Nombre}

/-- A `Dir de Bill` with a file of a species is of a trainer that plays. -/
theorem Guardado.mem_enBolsas (h : Guardado a₀ m js) (hs : s ∈ m.especies) (hfs : ArchivoDe s f)
    {path : Nombre} (hf : f ∈ m.dirDeBill path) :
    ∃ p ∈ js, m.camino p = path ∧ f ∈ deEspecie s (m.bolsa p) := by
  by_cases hp : ∃ p ∈ js, m.camino p = path
  · obtain ⟨p, hp, rfl⟩ := hp
    exact ⟨p, hp, rfl, mem_deEspecie.mpr ⟨hf, hfs⟩⟩
  · have hnil := h.ajenas path (fun p hp' he => hp ⟨p, hp', he⟩) s hs
    have hmem := mem_deEspecie.mpr ⟨hf, hfs⟩
    rw [hnil] at hmem
    cases hmem

theorem Guardado.unico (h : Guardado a₀ m js) (h₀ : Surtido a₀) (hs : s ∈ m.especies)
    (hf : f ∈ a₀.pokeNests s) : ∃! l, EstaEn m.toAlmacen f l := by
  have hs₀ : s ∈ a₀.especies := by rwa [← Almacen.especies_congr h.fichas]
  have hfs : ArchivoDe s f := h₀.nombres s hs₀ f hf
  have hnd := h.nodup_lugar h₀ hs
  have hdis := List.disjoint_of_nodup_append hnd
  have hnest : ∀ s', s' ∈ m.especies → f ∈ m.pokeNests s' → s' = s := fun s' hs' hf' =>
    (h.archivoDe h₀ hs' hf').unica hfs
  cases List.mem_append.mp ((h.lugar s hs).symm.subset hf) with
  | inl hm =>
    refine ⟨.pokeNest s, ⟨hs, hm⟩, ?_⟩
    intro l hl
    cases l with
    | pokeNest s' => rw [hnest s' hl.1 hl.2]
    | dirDeBill path =>
      obtain ⟨p, hp, _, hmem⟩ := h.mem_enBolsas hs hfs hl
      exact absurd (List.mem_flatMap.mpr ⟨p, hp, hmem⟩) (hdis hm)
  | inr hb =>
    obtain ⟨p, hp, hmem⟩ := List.mem_flatMap.mp hb
    refine ⟨.dirDeBill (m.camino p), (mem_deEspecie.mp hmem).1, ?_⟩
    intro l hl
    cases l with
    | pokeNest s' =>
      have hfm := hl.2
      rw [hnest s' hl.1 hl.2] at hfm
      exact absurd hb (hdis hfm)
    | dirDeBill path =>
      obtain ⟨x, hx, rfl, hmem'⟩ := h.mem_enBolsas hs hfs hl
      by_cases hxp : x = p
      · rw [hxp]
      · have hnd' := (enBolsas_perm hp).nodup_iff.mp (List.nodup_append.mp hnd).2.1
        have hx' : x ∈ js.erase p := h.nodup.mem_erase_iff.mpr ⟨hxp, hx⟩
        exact absurd (List.mem_flatMap.mpr ⟨x, hx', hmem'⟩)
          (List.disjoint_of_nodup_append hnd' hmem)

end Unico

/-- In a run whose captures are acknowledged and whose releases find no file of another species
under the name of theirs, every file is in one place, a directory of a species has only files that
it had at first, as many as its units, and it has them all once nobody holds anything. -/
theorem archivos_en_su_lugar {m₀ : Estado} (h₀ : MapaNuevo m₀) {s : Reparto} {es : List Movimiento}
    (hrun : Run (fun s e s' => PasoReparto s e s' ∧ CapturaYDevuelve s e) ⟨m₀, []⟩ es s) :
    (∀ d ∈ m₀.directorios, ∀ f ∈ m₀.pokeNests d.species, ∃! l, EstaEn s.mapa.toAlmacen f l) ∧
    (∀ d ∈ m₀.directorios, s.mapa.pokeNests d.species ⊆ m₀.pokeNests d.species) ∧
    (∀ p ∈ s.mapa.listaPokenest, p.cant = (s.mapa.pokeNests p.species).length) ∧
    ((∀ p ∈ s.jugando, s.mapa.capturados p = []) →
      ∀ d ∈ m₀.directorios, (s.mapa.pokeNests d.species).Perm (m₀.pokeNests d.species)) := by
  have hsur := h₀.surtido
  have hpaso : ∀ s e s', Guardado m₀.toAlmacen s.mapa s.jugando →
      PasoReparto s e s' ∧ CapturaYDevuelve s e → Guardado m₀.toAlmacen s'.mapa s'.jugando :=
    fun _ _ _ hi hstep => hi.paso hsur hstep.1 hstep.2
  have h : Guardado m₀.toAlmacen s.mapa s.jugando :=
    hrun.invariant (I := fun s => Guardado m₀.toAlmacen s.mapa s.jugando) hpaso hsur.guardado
  have hesp : ∀ d ∈ m₀.directorios, d.species ∈ s.mapa.especies := by
    intro d hd
    rw [Almacen.especies_congr h.fichas, h₀.especies]
    exact List.mem_map_of_mem hd
  refine ⟨?_, ?_, h.cant, ?_⟩
  · exact fun d hd f hf => h.unico hsur (hesp d hd) hf
  · intro d hd f hf
    exact (h.lugar d.species (hesp d hd)).subset (List.mem_append_left _ hf)
  · intro hnada d hd
    have hperm := h.lugar d.species (hesp d hd)
    have hvacia : enBolsas s.mapa d.species s.jugando = [] := by
      apply List.flatMap_eq_nil_iff.mpr
      intro p hp
      have hlen := h.bolsas p hp d.species (hesp d hd)
      rw [hnada p hp] at hlen
      exact List.length_eq_zero_iff.mp hlen
    rwa [hvacia, List.append_nil] at hperm

/-! ## Two species -/

def mew : Nombre := [77, 101, 119]

def mewtwo : Nombre := [77, 101, 119, 116, 119, 111]

def ekans : Nombre := [69, 107, 97, 110, 115]

def almacenDeDos (otra : Nombre) : Almacen where
  listaPokenest := []
  directorios := [⟨mew, 77, ⟨1, 1⟩⟩, ⟨otra, 87, ⟨2, 2⟩⟩]
  pokeNests s := [s ++ [48, 48, 49, 46, 100, 97, 116]]
  dirDeBill _ := []

def mapaDeDos (otra : Nombre) : Estado where
  toAlmacen := (almacenDeDos otra).cargarPokenest
  pcb _ :=
    { sockfd := 0, pathEntrenador := [], punto := ⟨0, 0⟩, proximaPokenest := ⟨77, mew, ⟨1, 1⟩, 1⟩,
      listaRecursos := 0, direccionDesconocida := true }
  recursos _ := []
  libre := 0
  listaListos := []
  listaBloqueados := []
  enviados := []
  quantum := 3
  batalla := false

theorem mapaNuevo_deDos {otra : Nombre} (h : mew ≠ otra) : MapaNuevo (mapaDeDos otra) := by
  refine ⟨⟨_, rfl, rfl⟩, ?_, ?_, ?_, ?_⟩
  · change [mew, otra].Nodup
    simp [h]
  · intro d _
    exact List.nodup_singleton _
  · intro d _ f hf
    obtain rfl := List.mem_singleton.mp hf
    exact ⟨List.prefix_append _ _, by simp⟩
  · intro path d _ f hf
    cases hf

def capturaLosDos : List Movimiento :=
  [.conecta 5 [97] 77, .captura 5 ⟨3, some 77, none, true, true⟩,
    .captura 5 ⟨3, some 87, none, true, true⟩, .libera 0]

theorem archivos_en_su_lugar_ekans : ∃ s : Reparto, s.jugando = [] ∧
    ∀ d ∈ (mapaDeDos ekans).directorios,
      (s.mapa.pokeNests d.species).Perm ((mapaDeDos ekans).pokeNests d.species) := by
  have hrun : ∃ s, Run (fun s e s' => PasoReparto s e s' ∧ CapturaYDevuelve s e)
      ⟨mapaDeDos ekans, []⟩ capturaLosDos s ∧ s.jugando = [] := by
    have hsinPrefijo : ∀ e ∈ (almacenDeDos ekans).cargarPokenest.especies,
        ∀ f ∈ (almacenDeDos ekans).pokeNests ekans ++ (almacenDeDos ekans).pokeNests mew,
        e <+: f → ArchivoDe e f := by
      decide
    exact ⟨_, .cons ⟨.conecta (by simp) rfl, trivial⟩ <|
      .cons ⟨.captura (p := 0) (q := 0) (by decide) rfl ⟨rfl, rfl⟩ rfl rfl, fun _ => rfl⟩ <|
      .cons ⟨.captura (p := 0) (q := 0) (by decide) rfl ⟨rfl, rfl⟩ rfl rfl, fun _ => rfl⟩ <|
      .cons ⟨.libera (p := 0) (by decide) ⟨rfl, rfl⟩ rfl,
        fun _ _ e he => hsinPrefijo e (Almacen.mem_especies_of_especie he :)⟩ (.nil _), rfl⟩
  obtain ⟨s, hs, hnadie⟩ := hrun
  refine ⟨s, hnadie, ?_⟩
  apply (archivos_en_su_lugar (mapaNuevo_deDos (by decide)) hs).2.2.2
  simp [hnadie]

theorem no_todo_archivo_en_su_lugar : ¬ ∀ (m₀ : Estado) (s : Reparto) (es : List Movimiento),
    MapaNuevo m₀ → Run PasoReparto ⟨m₀, []⟩ es s → (∀ p ∈ s.jugando, s.mapa.capturados p = []) →
    ∀ d ∈ m₀.directorios, (s.mapa.pokeNests d.species).Perm (m₀.pokeNests d.species) := by
  intro h
  have hrun : ∃ s, Run PasoReparto ⟨mapaDeDos mewtwo, []⟩ capturaLosDos s ∧ s.jugando = [] ∧
      s.mapa.pokeNests mewtwo = [] :=
    ⟨_, .cons (.conecta (by simp) rfl) <|
      .cons (.captura (p := 0) (q := 0) (by decide) rfl ⟨rfl, rfl⟩ rfl rfl) <|
      .cons (.captura (p := 0) (q := 0) (by decide) rfl ⟨rfl, rfl⟩ rfl rfl) <|
      .cons (.libera (p := 0) (by decide) ⟨rfl, rfl⟩ rfl) (.nil _), rfl, rfl⟩
  obtain ⟨s, hs, hnadie, hnada⟩ := hrun
  have hperm := h _ s _ (mapaNuevo_deDos (by decide)) hs (by simp [hnadie])
    ⟨mewtwo, 87, ⟨2, 2⟩⟩ (by decide)
  rw [hnada] at hperm
  exact absurd hperm.length_eq (by decide)

end TpSo.Mapa
