import TpSo.Osada.Bloques
import TpSo.Osada.Ruta

/-!
# The table of files

Taking a free slot of the table, and writing descriptors. `obtenerEstructuraDeArchivoLibre`
goes round a copy of the table from a cursor that all threads share; a slot it hands out is
marked as granted until its descriptor is written.
-/

namespace TpSo.Osada

open Function (update)

def Pokedex.otorgar (s : Pokedex) (i : ℕ) : Pokedex :=
  { s with
    ultimaEntradaLibreDeTabla := i + 1
    entradasLibresOtorgadas := update s.entradasLibresOtorgadas i true }

/-- One round of the search, between the lock and the unlock: the value to return, if any,
and the next position. On leaving the loop with `break` the mutex stays locked. -/
def probarEntrada (archivos : ℕ → OsadaFile) (i : ℕ) : Op Pokedex (Option ℤ × ℕ) := fun s =>
  if s.obtenerEntradaArchivoLibreMutex then (none, s)
  else if (archivos i).state = .deleted ∧ s.entradasLibresOtorgadas i = false then
    (some (some i, i), s.otorgar i)
  else
    let i' := if i + 1 = 2048 then 0 else i + 1
    if i' = s.ultimaEntradaLibreDeTabla then
      (some (some (-1), i'), { s with obtenerEntradaArchivoLibreMutex := true })
    else (some (none, i'), s)

/-- The start of the search: the cursor is brought back into the table. -/
def normalizarCursor : Op Pokedex ℕ := fun s =>
  let u := if 2047 ≤ s.ultimaEntradaLibreDeTabla then 0 else s.ultimaEntradaLibreDeTabla
  (some u, { s with ultimaEntradaLibreDeTabla := u })

/-- The search; `vueltas` is the number of slots. -/
def buscarEntrada (archivos : ℕ → OsadaFile) (vueltas i : ℕ) : Op Pokedex (Option ℤ × ℕ) :=
  Op.whileDo (fun r => r.1 = none) (fun r => probarEntrada archivos r.2) vueltas (none, i)

def obtenerEstructuraDeArchivoLibre : Op Pokedex ℤ := do
  let archivos ← Op.get fun s => s.disco.archivos
  let i ← normalizarCursor
  let r ← buscarEntrada archivos 2048 i
  pure (r.1.getD (-1))

/-- The `fwrite` of a descriptor at a position of the table. -/
def reemplazarEstructuraDeArchivo (posicion : ℕ) (descriptor : OsadaFile) : Op Pokedex ℤ :=
  fun s => (some 1, s.escribir (.descriptor posicion descriptor))

/-- The write of a new descriptor and the end of the grant. -/
def escribirOtorgada (posicion : ℕ) (descriptor : OsadaFile) : Op Pokedex PUnit := fun s =>
  (some ⟨⟩, { s.escribir (.descriptor posicion descriptor) with
    entradasLibresOtorgadas := update s.entradasLibresOtorgadas posicion false })

/-- `pthread_rwlock_wrlock(locks + posicion)`: there is a lock for each slot, and what is past the
array is none. -/
def tomarLock (posicion : ℕ) : Op Pokedex PUnit := if posicion < 2048 then pure ⟨⟩ else Op.abort

theorem tomarLock_bind {α : Type} {posicion : ℕ} (h : posicion < 2048) (f : PUnit → Op Pokedex α) :
    tomarLock posicion >>= f = f ⟨⟩ := by
  funext s
  rw [tomarLock, if_pos h, Op.pure_bind']

theorem tomarLock_bind_fuera {α : Type} {posicion : ℕ} (h : 2048 ≤ posicion)
    (f : PUnit → Op Pokedex α) (s : Pokedex) : (tomarLock posicion >>= f) s = (none, s) := by
  rw [tomarLock, if_neg (Nat.not_lt.mpr h)]
  rfl

/-- The position is a `uint16_t`, which is never `-1`. -/
def escribirDescriptor (descriptor : OsadaFile) : Op Pokedex ℤ := do
  let libre ← obtenerEstructuraDeArchivoLibre
  let posicion := u16 libre
  tomarLock posicion
  escribirOtorgada posicion descriptor
  pure (i16 posicion)

/-- `strcpy` over the 17 bytes of `fname`; what goes past them lands in fields that are set
afterwards. -/
def strcpyFname (fname nombre : List UInt8) : List UInt8 :=
  (nombre ++ 0 :: fname.drop (nombre.length + 1)).take 17

/-- The descriptor of a new entry: `hora` is the clock and `basura` what the memory of the
descriptor held before. -/
def descriptorNuevo (hora : ℕ) (basura : OsadaFile) (nombre : List UInt8)
    (parentDirectory : ℕ) (estructura : OsadaFileState) : OsadaFile :=
  { state := estructura
    fname := if nombre.length ≠ 17 then strcpyFname basura.fname nombre else nombre
    fileSize := 0
    parentDirectory := parentDirectory
    lastmod := hora
    firstBlock := uint32Max }

def escribirDirectorioInterna (hora : ℕ) (basura : OsadaFile) (nombre : List UInt8)
    (parentDirectory : ℕ) (estructura : OsadaFileState) : Op Pokedex ℤ :=
  if estructura = .regular ∨ estructura = .directory then
    escribirDescriptor (descriptorNuevo hora basura nombre parentDirectory estructura)
  else pure (-1)

def obtenerCantidadDeArchivos (d : Disco) : ℕ :=
  (List.range 2048).countP fun i =>
    (d.archivos i).state = .regular ∨ (d.archivos i).state = .directory

/-- No slot is granted and nobody holds the mutex: the state between operations that run one
after another. -/
def SinPendientes (s : Pokedex) : Prop :=
  (∀ i, s.entradasLibresOtorgadas i = false) ∧ s.obtenerEntradaArchivoLibreMutex = false

theorem sinPendientes_inicial (d : Disco) : SinPendientes (.inicial d) := ⟨fun _ => rfl, rfl⟩

theorem obtenerCantidadDeArchivos_lt {d : Disco} (h : obtenerCantidadDeArchivos d < 2048) :
    ∃ i < 2048, (d.archivos i).state = .deleted := by
  by_contra hno
  have hall : ∀ i ∈ List.range 2048, decide ((d.archivos i).state = .regular ∨
      (d.archivos i).state = .directory) = true := by
    intro i hi
    have hne : (d.archivos i).state ≠ .deleted :=
      fun he => hno ⟨i, List.mem_range.mp hi, he⟩
    cases hs : (d.archivos i).state <;> simp_all
  have hcount := List.countP_eq_length.mpr hall
  rw [List.length_range] at hcount
  unfold obtenerCantidadDeArchivos at h
  omega

/-- The search hands out slot `i`: it is deleted, and no thread is about to write it. -/
def Otorgable (s : Pokedex) (i : ℕ) : Prop :=
  (s.disco.archivos i).state = .deleted ∧ s.entradasLibresOtorgadas i = false

section Buscar
variable {s : Pokedex}

/-- The `k`-th position of the search from the cursor `u`. -/
def vuelta (u k : ℕ) : ℕ := (u + k) % 2048

theorem vuelta_succ (u k : ℕ) :
    (if vuelta u k + 1 = 2048 then 0 else vuelta u k + 1) = vuelta u (k + 1) := by
  unfold vuelta
  split <;> omega

theorem probarEntrada_ocupada {u k : ℕ} (hmutex : s.obtenerEntradaArchivoLibreMutex = false)
    (hu : s.ultimaEntradaLibreDeTabla = u) (hk : k + 1 < 2048) (hocup : ¬ Otorgable s (vuelta u k)) :
    probarEntrada s.disco.archivos (vuelta u k) s = (some (none, vuelta u (k + 1)), s) := by
  have hne : vuelta u (k + 1) ≠ s.ultimaEntradaLibreDeTabla := by
    rw [hu]
    unfold vuelta
    omega
  unfold Otorgable at hocup
  rw [probarEntrada, if_neg (by simp [hmutex]), if_neg hocup]
  simp only [vuelta_succ, if_neg hne]

/-- The round that comes back to the cursor leaves the mutex locked. -/
theorem probarEntrada_ultima {u : ℕ} (hmutex : s.obtenerEntradaArchivoLibreMutex = false)
    (hu : s.ultimaEntradaLibreDeTabla = u) (hlt : u < 2048) (hocup : ¬ Otorgable s (vuelta u 2047)) :
    probarEntrada s.disco.archivos (vuelta u 2047) s =
      (some (some (-1), u), { s with obtenerEntradaArchivoLibreMutex := true }) := by
  have hvuelve : vuelta u (2047 + 1) = u := by
    unfold vuelta
    omega
  unfold Otorgable at hocup
  rw [probarEntrada, if_neg (by simp [hmutex]), if_neg hocup]
  simp only [vuelta_succ, hvuelve, hu, if_true]

theorem probarEntrada_libre {u k : ℕ} (hmutex : s.obtenerEntradaArchivoLibreMutex = false)
    (hlibre : Otorgable s (vuelta u k)) : probarEntrada s.disco.archivos (vuelta u k) s =
      (some (some (vuelta u k : ℤ), vuelta u k), s.otorgar (vuelta u k)) := by
  unfold Otorgable at hlibre
  rw [probarEntrada, if_neg (by simp [hmutex]), if_pos hlibre]

theorem buscarEntrada_paso {archivos : ℕ → OsadaFile} {fuel i i' : ℕ} {r : Option ℤ} {s' : Pokedex}
    (hrun : probarEntrada archivos i s = (some (r, i'), s')) :
    buscarEntrada archivos (fuel + 1) i s =
      Op.whileDo (fun r => r.1 = none) (fun r => probarEntrada archivos r.2) fuel (r, i') s' := by
  rw [buscarEntrada, Op.whileDo, if_pos (by simp)]
  exact Op.bind_some hrun

theorem buscarEntrada_fin {archivos : ℕ → OsadaFile} {fuel i : ℕ} {v : ℤ} :
    Op.whileDo (fun r : Option ℤ × ℕ => r.1 = none) (fun r => probarEntrada archivos r.2) fuel
      (some v, i) s = (some (some v, i), s) := by
  cases fuel <;> simp [Op.whileDo]

/-- The search up to the `m`-th slot, with nothing to hand out before it. -/
theorem buscarHasta {u m : ℕ} {r : ℤ} {i' : ℕ} {s' : Pokedex}
    (hmutex : s.obtenerEntradaArchivoLibreMutex = false) (hu : s.ultimaEntradaLibreDeTabla = u)
    (hm : m < 2048) (hantes : ∀ k < m, ¬ Otorgable s (vuelta u k))
    (hrun : probarEntrada s.disco.archivos (vuelta u m) s = (some (some r, i'), s')) :
    ∀ (fuel k : ℕ), k ≤ m → m + 1 ≤ fuel + k →
      buscarEntrada s.disco.archivos fuel (vuelta u k) s = (some (some r, i'), s') := by
  intro fuel
  induction fuel with
  | zero =>
    intro k hk hfuel
    omega
  | succ fuel ih =>
    intro k hk hfuel
    rcases Nat.lt_or_eq_of_le hk with hlt | rfl
    · rw [buscarEntrada_paso (probarEntrada_ocupada hmutex hu (by omega) (hantes k hlt))]
      exact ih (k + 1) hlt (by omega)
    · rw [buscarEntrada_paso hrun]
      exact buscarEntrada_fin

def Pokedex.cursor (s : Pokedex) : ℕ :=
  if 2047 ≤ s.ultimaEntradaLibreDeTabla then 0 else s.ultimaEntradaLibreDeTabla

theorem cursor_lt (s : Pokedex) : s.cursor < 2048 := by
  unfold Pokedex.cursor
  split <;> omega

theorem obtenerEstructuraDeArchivoLibre_eq {m i' : ℕ} {r : ℤ} {s' : Pokedex}
    (hmutex : s.obtenerEntradaArchivoLibreMutex = false) (hm : m < 2048)
    (hantes : ∀ k < m, ¬ Otorgable s (vuelta s.cursor k))
    (hrun : probarEntrada s.disco.archivos (vuelta s.cursor m)
      { s with ultimaEntradaLibreDeTabla := s.cursor } = (some (some r, i'), s')) :
    obtenerEstructuraDeArchivoLibre s = (some r, s') := by
  have hcero : vuelta s.cursor 0 = s.cursor := Nat.mod_eq_of_lt (cursor_lt s)
  have hnorm : normalizarCursor s =
    (some s.cursor, { s with ultimaEntradaLibreDeTabla := s.cursor }) := rfl
  have hbusca := buscarHasta (s := { s with ultimaEntradaLibreDeTabla := s.cursor }) hmutex rfl hm
    hantes hrun 2048 0 (Nat.zero_le _) (by omega)
  rw [hcero] at hbusca
  rw [obtenerEstructuraDeArchivoLibre, Op.bind_some (Op.get_apply _ _), Op.bind_some hnorm,
    Op.bind_some hbusca]
  rfl

/-- The search hands out the first slot it can, from the cursor on. -/
theorem obtenerEstructuraDeArchivoLibre_primera
    (hmutex : s.obtenerEntradaArchivoLibreMutex = false) (hlibre : ∃ i < 2048, Otorgable s i) :
    ∃ k < 2048, Otorgable s (vuelta s.cursor k) ∧ (∀ j < k, ¬ Otorgable s (vuelta s.cursor j)) ∧
      obtenerEstructuraDeArchivoLibre s =
        (some (vuelta s.cursor k : ℤ), s.otorgar (vuelta s.cursor k)) := by
  have hex : ∃ k, k < 2048 ∧ Otorgable s (vuelta s.cursor k) := by
    obtain ⟨i, hi, hdel⟩ := hlibre
    have hu := cursor_lt s
    refine ⟨(i + 2048 - s.cursor) % 2048, Nat.mod_lt _ (by decide), ?_⟩
    rwa [vuelta, show (s.cursor + (i + 2048 - s.cursor) % 2048) % 2048 = i by omega]
  classical
  obtain ⟨hk, hdel⟩ := Nat.find_spec hex
  have hantes : ∀ j < Nat.find hex, ¬ Otorgable s (vuelta s.cursor j) := fun j hj hd =>
    Nat.find_min hex hj ⟨hj.trans hk, hd⟩
  exact ⟨Nat.find hex, hk, hdel, hantes,
    obtenerEstructuraDeArchivoLibre_eq hmutex hk hantes (probarEntrada_libre hmutex hdel)⟩

theorem obtenerEstructuraDeArchivoLibre_otorga
    (hmutex : s.obtenerEntradaArchivoLibreMutex = false) (hlibre : ∃ i < 2048, Otorgable s i) :
    ∃ i < 2048, Otorgable s i ∧
      obtenerEstructuraDeArchivoLibre s = (some (i : ℤ), s.otorgar i) := by
  obtain ⟨k, _, hdel, _, hrun⟩ := obtenerEstructuraDeArchivoLibre_primera hmutex hlibre
  exact ⟨vuelta s.cursor k, Nat.mod_lt _ (by decide), hdel, hrun⟩

/-- With nothing to hand out, the search goes round once and leaves the mutex locked. -/
theorem obtenerEstructuraDeArchivoLibre_agota
    (hmutex : s.obtenerEntradaArchivoLibreMutex = false) (hno : ∀ i < 2048, ¬ Otorgable s i) :
    obtenerEstructuraDeArchivoLibre s = (some (-1), { s with
      ultimaEntradaLibreDeTabla := s.cursor
      obtenerEntradaArchivoLibreMutex := true }) := by
  have hlt : ∀ k, vuelta s.cursor k < 2048 := fun k => Nat.mod_lt _ (by decide)
  exact obtenerEstructuraDeArchivoLibre_eq hmutex (show 2047 < 2048 by decide)
    (fun k _ => hno _ (hlt k)) (probarEntrada_ultima hmutex rfl (cursor_lt s) (hno _ (hlt 2047)))

/-- While somebody holds the mutex, the search waits. -/
theorem obtenerEstructuraDeArchivoLibre_espera (hmutex : s.obtenerEntradaArchivoLibreMutex = true) :
    obtenerEstructuraDeArchivoLibre s =
      (none, { s with ultimaEntradaLibreDeTabla := s.cursor }) := by
  have hnorm : normalizarCursor s =
    (some s.cursor, { s with ultimaEntradaLibreDeTabla := s.cursor }) := rfl
  have hprueba : probarEntrada s.disco.archivos s.cursor
      { s with ultimaEntradaLibreDeTabla := s.cursor } =
      (none, { s with ultimaEntradaLibreDeTabla := s.cursor }) := by
    rw [probarEntrada, if_pos hmutex]
  have hbusca : buscarEntrada s.disco.archivos 2048 s.cursor
      { s with ultimaEntradaLibreDeTabla := s.cursor } =
      (none, { s with ultimaEntradaLibreDeTabla := s.cursor }) := by
    rw [buscarEntrada, Op.whileDo, if_pos (by simp)]
    exact Op.bind_none hprueba
  rw [obtenerEstructuraDeArchivoLibre, Op.bind_some (Op.get_apply _ _), Op.bind_some hnorm]
  exact Op.bind_none hbusca

/-- The state in which a creation leaves the server. -/
def Pokedex.conEntrada (s : Pokedex) (i : ℕ) (e : OsadaFile) : Pokedex :=
  { s.escribir (.descriptor i e) with ultimaEntradaLibreDeTabla := i + 1 }

theorem escribirOtorgada_apply {i : ℕ} (hi : s.entradasLibresOtorgadas i = false) (e : OsadaFile) :
    escribirOtorgada i e (s.otorgar i) = (some ⟨⟩, s.conEntrada i e) := by
  have hotorgada : update (update s.entradasLibresOtorgadas i true) i false =
      s.entradasLibresOtorgadas := by
    rw [Function.update_idem, ← hi, Function.update_eq_self]
  simp only [escribirOtorgada, Pokedex.otorgar, Pokedex.conEntrada, Pokedex.escribir, hotorgada]

theorem escribirDescriptor_otorga (hmutex : s.obtenerEntradaArchivoLibreMutex = false)
    (hlibre : ∃ i < 2048, Otorgable s i) (e : OsadaFile) :
    ∃ i < 2048, Otorgable s i ∧ escribirDescriptor e s = (some (i : ℤ), s.conEntrada i e) := by
  obtain ⟨i, hi, hdel, hrun⟩ := obtenerEstructuraDeArchivoLibre_otorga hmutex hlibre
  refine ⟨i, hi, hdel, ?_⟩
  rw [escribirDescriptor, Op.bind_some hrun, u16_natCast_of_lt (by omega),
    i16_natCast_of_lt (by omega), tomarLock_bind hi,
    Op.bind_some (escribirOtorgada_apply hdel.2 e), Op.pure_apply]

/-- With nothing granted and a deleted slot, the descriptor goes into one such slot. -/
theorem escribirDescriptor_apply (hs : SinPendientes s)
    (hlibre : ∃ i < 2048, (s.disco.archivos i).state = .deleted) (e : OsadaFile) :
    ∃ i < 2048, (s.disco.archivos i).state = .deleted ∧
      escribirDescriptor e s = (some (i : ℤ), s.conEntrada i e) := by
  obtain ⟨i, hi, hdel⟩ := hlibre
  obtain ⟨j, hj, hlibre, hrun⟩ := escribirDescriptor_otorga hs.2 ⟨i, hi, hdel, hs.1 i⟩ e
  exact ⟨j, hj, hlibre.1, hrun⟩

/-- The `-1` of the search is the position `65535` here, and there is no lock for it: the server dies
with the mutex taken and nothing written. -/
theorem escribirDescriptor_agota (hmutex : s.obtenerEntradaArchivoLibreMutex = false)
    (hno : ∀ i < 2048, ¬ Otorgable s i) (e : OsadaFile) :
    escribirDescriptor e s = (none, { s with
      ultimaEntradaLibreDeTabla := s.cursor
      obtenerEntradaArchivoLibreMutex := true }) := by
  have hpos : u16 (-1) = 65535 := by decide
  rw [escribirDescriptor, Op.bind_some (obtenerEstructuraDeArchivoLibre_agota hmutex hno), hpos]
  exact tomarLock_bind_fuera (by decide) _ _

theorem escribirDescriptor_espera (hmutex : s.obtenerEntradaArchivoLibreMutex = true)
    (e : OsadaFile) :
    escribirDescriptor e s = (none, { s with ultimaEntradaLibreDeTabla := s.cursor }) :=
  Op.bind_none (obtenerEstructuraDeArchivoLibre_espera hmutex)

end Buscar

end TpSo.Osada
