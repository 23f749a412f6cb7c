import TpSo.Osada.Corridas
import TpSo.Osada.Vueltas
import TpSo.PokeDex.Conversacion

/-!
# The requests that are answered

`Atendible` says of the disk that a request finds when it is answered: its paths can be taken apart
and, where the operation goes along blocks or looks for a free entry, they are as they should be.
On the disks that are `EnOrden` no other request is answered.
-/

namespace TpSo.PokeDex

open Dialogue Rocket
open Osada (Cadena Pokedex)

variable {m : Momento} {path : Cadena} {peticiones : List Peticion}

def orden (m : Momento) : Pedido → Option Osada.Operacion
  | .escribirArchivo offset path buf => some (.editar m.basura path offset (i32 buf.length) buf)
  | .truncarArchivo path offset => some (.truncar m.basura path offset)
  | .borrarArchivo path => some (.eliminar m.basura path 0)
  | .crearDirectorio path => some (.crearDirectorio m.hora m.basura path)
  | .crearArchivo path => some (.crearArchivo m.hora m.basura path)
  | .renombrarArchivo desde hasta => some (.renombrar m.basura desde hasta)
  | .utimens path segundos => some (.utimens m.basura path segundos)
  | .abrirArchivo _ | .leerArchivo _ _ _ | .getDir _ | .getAttr _ => none

/-- There is a file at the path, and its chain goes on after what is to be read. -/
def SeLee (m : Momento) (path : Cadena) (size : ℕ) (offset : ℤ) : Prop :=
  ∃ l descriptor xs, Osada.leerPath m.pokedex.disco m.basura path = some l ∧
    l.resultado = .archivoExiste ∧ l.descriptor = some descriptor ∧
    descriptor.state ≠ .directory ∧ Osada.CadenaDe m.pokedex.disco descriptor xs ∧ xs ≠ [] ∧
    0 ≤ offset ∧ offset < 2147483648 ∧ Osada.Alcanza xs.length
      (Osada.largoRango descriptor.fileSize size offset.toNat) offset.toNat

/-- The name and its NUL stay within a descriptor. -/
def NombreCabe (path : Cadena) : Prop :=
  ∀ nombre, Osada.obtenerNombreDeArchivoDePath path = some nombre → nombre.length ≤ 30

/-- What is asked of the disk for the request to be answered. -/
def Atendible (m : Momento) : Pedido → Prop
  | .abrirArchivo path | .getDir path | .getAttr path | .utimens path _ => path.Legible
  | .renombrarArchivo desde hasta => desde.Legible ∧ hasta.Legible ∧ NombreCabe hasta
  | .leerArchivo size offset path => SeLee m path size offset
  | .crearArchivo path => Osada.SinPendientes m.pokedex ∧
    (path.Legible ∨ 2048 ≤ Osada.obtenerCantidadDeArchivos m.pokedex.disco)
  | .crearDirectorio path => Osada.SinPendientes m.pokedex ∧ NombreCabe path ∧
    (path.Legible ∧ ¬ Osada.EsRaiz path ∨
      2048 ≤ Osada.obtenerCantidadDeArchivos m.pokedex.disco)
  | .escribirArchivo offset path buf => Osada.BienFormado m.pokedex.disco ∧ path.Legible ∧
    ¬ Osada.EsRaiz path ∧ Osada.SiExiste m.pokedex.disco path fun e =>
      Osada.VuelveEscritura m.pokedex.disco e (i32 buf.length) (i32 offset)
  | .truncarArchivo path offset => Osada.BienFormado m.pokedex.disco ∧ path.Legible ∧
    ¬ Osada.EsRaiz path ∧ (Osada.Pedido.truncarArchivo path (u32 offset)).Entra m.pokedex.disco
  | .borrarArchivo path => Osada.BienFormado m.pokedex.disco ∧ path.Legible

/-- The disk is sound; a read begins where its offset says, what is truncated is a file, and the new
names stay within their descriptors. -/
def EnOrden (m : Momento) (pedido : Pedido) : Prop :=
  Osada.Sano m.pokedex ∧
    (∀ size offset path, pedido = .leerArchivo size offset path →
      0 ≤ offset ∧ offset < 2147483648) ∧
    (∀ path offset, pedido = .truncarArchivo path offset →
      Osada.SiExiste m.pokedex.disco path fun e => e.state = .regular) ∧
    (∀ desde hasta, pedido = .renombrarArchivo desde hasta → NombreCabe hasta) ∧
    ∀ path, pedido = .crearDirectorio path → NombreCabe path

/-! ## What is answered -/

section Contesta

/-- The server goes on after every answer but that to a new root. -/
theorem ultima_eq_false {pedido : Pedido} {r : Respuesta}
    (hraiz : ∀ path, pedido = .crearDirectorio path → path.1 ≠ [Osada.barra])
    (hr : respuesta m pedido = some r) : r.ultima = false := by
  obtain ⟨a, -, hr⟩ := Option.bind_eq_some_iff.mp hr
  cases pedido with
  | leerArchivo size offset path =>
    obtain ⟨archivo, _, rfl⟩ := Option.map_eq_some_iff.mp hr
    rfl
  | crearDirectorio path =>
    obtain rfl := Option.some.inj hr
    have hno : ∀ r : ℤ, ¬ Osada.liberaElPath path r := fun r h => hraiz path rfl h.1
    have hdecide : ∀ r : ℤ, decide (Osada.liberaElPath path r) = false :=
      fun r => decide_eq_false (hno r)
    exact hdecide a
  | getAttr path =>
    cases a with
    | none =>
      obtain rfl := Option.some.inj hr
      rfl
    | some atributos =>
      simp only [operacion, atendido] at hr
      split at hr <;> (obtain rfl := Option.some.inj hr; rfl)
  | _ =>
    obtain rfl := Option.some.inj hr
    rfl

/-- A request is answered when its operation returns, but for a read, which may give nothing, and a
new directory, after which the server may die. -/
theorem contesta_iff_isSome (pedido : Pedido)
    (hlee : ∀ size offset path, pedido ≠ .leerArchivo size offset path)
    (hdir : ∀ path, pedido ≠ .crearDirectorio path) :
    Contesta m pedido ↔ ((operacion m (atendido pedido)).op m.pokedex).1.isSome = true := by
  constructor
  · rintro ⟨r, hr, _⟩
    obtain ⟨a, ha, _⟩ := Option.bind_eq_some_iff.mp hr
    rw [ha]
    rfl
  · intro h
    obtain ⟨a, ha⟩ := Option.isSome_iff_exists.mp h
    have hresponde : ∃ r, (operacion m (atendido pedido)).respuesta a = some r := by
      cases pedido with
      | leerArchivo size offset path => exact absurd rfl (hlee size offset path)
      | getAttr path =>
        cases a with
        | none => exact ⟨_, rfl⟩
        | some atributos =>
          simp only [operacion, atendido]
          split <;> exact ⟨_, rfl⟩
      | _ => exact ⟨_, rfl⟩
    obtain ⟨r, har⟩ := hresponde
    have hr : respuesta m pedido = some r := Option.bind_eq_some_iff.mpr ⟨a, ha, har⟩
    exact ⟨r, hr, ultima_eq_false (fun path hp => absurd hp (hdir path)) hr⟩

theorem contesta_crearDirectorio : Contesta m (.crearDirectorio path) ↔
    ∃ r, (Osada.osadaCrearDirectorio m.hora m.basura path m.pokedex).1 = some r ∧
      ¬ Osada.liberaElPath path r := by
  constructor
  · rintro ⟨_, hr, hultima⟩
    obtain ⟨r, hcrea, hresponde⟩ := Option.bind_eq_some_iff.mp hr
    obtain rfl := Option.some.inj hresponde
    have hno : ∀ r : ℤ, decide (Osada.liberaElPath path r) = false →
        ¬ Osada.liberaElPath path r := fun r h => of_decide_eq_false h
    exact ⟨r, hcrea, hno r hultima⟩
  · rintro ⟨r, hcrea, hno⟩
    exact ⟨_, Option.bind_eq_some_iff.mpr ⟨r, hcrea, rfl⟩, decide_eq_false hno⟩

theorem contesta_leerArchivo {size : ℕ} {offset : ℤ} :
    Contesta m (.leerArchivo size offset path) ↔
      ∃ archivo, (Osada.osadaLeerArchivo m.basura m.memoria path size (i32 offset) m.pokedex).1 =
        some (some archivo) := by
  constructor
  · rintro ⟨r, hr, _⟩
    obtain ⟨a, ha, har⟩ := Option.bind_eq_some_iff.mp hr
    obtain ⟨archivo, rfl, _⟩ := Option.map_eq_some_iff.mp har
    exact ⟨archivo, ha⟩
  · rintro ⟨archivo, ha⟩
    exact ⟨_, Option.bind_eq_some_iff.mpr ⟨some archivo, ha, Option.map_some ..⟩, rfl⟩

theorem contesta_of_seLee {size : ℕ} {offset : ℤ} (hsize : size < 2147483648)
    (h : SeLee m path size offset) : Contesta m (.leerArchivo size offset path) := by
  obtain ⟨l, descriptor, xs, hl, hr, hd, hstate, hxs, hne, h0, hmax, halc⟩ := h
  obtain ⟨pos, rfl⟩ := Int.eq_ofNat_of_zero_le h0
  rw [Int.toNat_natCast] at halc
  have hpos : pos < 2147483648 := by exact_mod_cast hmax
  rw [contesta_leerArchivo, i32_natCast_of_lt hpos]
  have hvuelve : (Osada.osadaLeerArchivo m.basura m.memoria path size pos m.pokedex).1.isSome =
      true := (Osada.osadaLeerArchivo_file_isSome hl hr hd hstate hxs hsize hpos).mpr ⟨hne, halc⟩
  obtain ⟨archivo, ha⟩ := Option.isSome_iff_exists.mp hvuelve
  have hbytes : 0 ≤ i32 size := by
    rw [i32_natCast_of_lt hsize]
    exact Int.natCast_nonneg size
  have hhay := (Osada.osadaLeerArchivo_isSome hbytes ha).mpr ⟨l, descriptor, hl, hr, hd, hstate⟩
  obtain ⟨bytes, rfl⟩ := Option.isSome_iff_exists.mp hhay
  exact ⟨bytes, ha⟩

/-- What is read is a file, and on a sound disk it has its chain. -/
theorem seLee_of_contesta {size : ℕ} {offset : ℤ} (hd : Osada.BienFormado m.pokedex.disco)
    (hsize : size < 2147483648) (h0 : 0 ≤ offset) (hmax : offset < 2147483648)
    (h : Contesta m (.leerArchivo size offset path)) : SeLee m path size offset := by
  obtain ⟨pos, rfl⟩ := Int.eq_ofNat_of_zero_le h0
  have hpos : pos < 2147483648 := by exact_mod_cast hmax
  obtain ⟨bytes, ha⟩ := contesta_leerArchivo.mp h
  have hbytes : 0 ≤ i32 size := by
    rw [i32_natCast_of_lt hsize]
    exact Int.natCast_nonneg size
  obtain ⟨l, e, hl, hr, he, hstate⟩ := (Osada.osadaLeerArchivo_isSome hbytes ha).mp rfl
  have hraiz : ¬ Osada.EsRaiz path := by
    intro hraiz
    obtain ⟨_, hdes, _⟩ := Osada.leerPath_raiz_fuera hraiz hl
    rw [he, Option.some.injEq] at hdes
    exact hstate (by rw [hdes]; rfl)
  obtain ⟨hp, hdes, hvivo⟩ := Osada.leerPath_entrada hl hr hraiz
  obtain rfl := Option.some.inj (he.symm.trans hdes)
  have hreg : (m.pokedex.disco.archivos l.posicion).state = .regular := by
    generalize (m.pokedex.disco.archivos l.posicion).state = estado at hstate hvivo
    cases estado with
    | deleted => exact absurd rfl hvivo
    | regular => rfl
    | directory => exact absurd rfl hstate
  obtain ⟨xs, hxs⟩ := Osada.cadenaDe_of_bienFormado hd hp hreg
  rw [i32_natCast_of_lt hpos] at ha
  obtain ⟨hne, halc⟩ := (Osada.osadaLeerArchivo_file_isSome hl hr he hstate hxs hsize hpos).mp
    (by rw [ha]; rfl)
  exact ⟨l, _, xs, hl, hr, he, hstate, hxs, hne, h0, hmax, by rwa [Int.toNat_natCast]⟩

/-- The path of the root is found, and where it is found there is no lock. -/
theorem truncar_legible {offset : ℤ}
    (h : (Osada.osadaTruncarArchivo m.basura path offset m.pokedex).1.isSome = true) :
    path.Legible ∧ ¬ Osada.EsRaiz path := by
  refine ⟨Osada.leer_legible h, fun hraiz => ?_⟩
  rw [Osada.osadaTruncarArchivo, Op.bind_some (Osada.leer_raiz hraiz m.pokedex m.basura),
    Osada.confirmarTruncar_fuera rfl rfl (show 2048 ≤ Osada.posicionBarra by decide)] at h
  cases h

theorem suma_i32_lt {x y : ℤ} : i32 x + i32 y < 4294967296 := by
  have hx := (i32_range x).2
  have hy := (i32_range y).2
  omega

/-- What can be answered is. -/
theorem contesta_of_atendible {pedido : Pedido} (hcabe : Cabe pedido) (h : Atendible m pedido) :
    Contesta m pedido := by
  cases pedido with
  | leerArchivo size offset path => exact contesta_of_seLee (hcabe.2 size offset path rfl).2 h
  | abrirArchivo path =>
    rw [contesta_iff_isSome (.abrirArchivo path) (by simp) (by simp)]
    exact Osada.osadaExisteArchivo_isSome.mpr h
  | getDir path =>
    rw [contesta_iff_isSome (.getDir path) (by simp) (by simp)]
    exact Osada.osadaEstructuraDirectorio_isSome.mpr h
  | getAttr path =>
    rw [contesta_iff_isSome (.getAttr path) (by simp) (by simp)]
    exact Osada.osadaGetAtributosArchivo_isSome.mpr h
  | utimens path segundos =>
    rw [contesta_iff_isSome (.utimens path segundos) (by simp) (by simp)]
    exact Osada.osadaUtimens_isSome.mpr h
  | renombrarArchivo desde hasta =>
    rw [contesta_iff_isSome (.renombrarArchivo desde hasta) (by simp) (by simp)]
    exact Osada.osadaRenombrarArchivo_isSome.mpr ⟨h.1, h.2.1⟩
  | crearArchivo path =>
    rw [contesta_iff_isSome (.crearArchivo path) (by simp) (by simp)]
    exact (Osada.osadaCrearArchivo_isSome h.1).mpr h.2
  | crearDirectorio path =>
    exact contesta_crearDirectorio.mpr ((Osada.osadaCrearDirectorio_vuelve h.1).mpr h.2.2)
  | escribirArchivo offset path buf =>
    rw [contesta_iff_isSome (.escribirArchivo offset path buf) (by simp) (by simp)]
    exact (Osada.osadaEditarArchivo_isSome h.1 suma_i32_lt).mpr h.2
  | truncarArchivo path offset =>
    obtain ⟨hd, hleg, hraiz, hentra⟩ := h
    have hvuelve : (Osada.osadaTruncarArchivo m.basura path (i32 (u32 offset))
        m.pokedex).1.isSome = true := Osada.osadaTruncarArchivo_isSome hd hleg hraiz hentra
    rw [i32_u32] at hvuelve
    rw [contesta_iff_isSome (.truncarArchivo path offset) (by simp) (by simp)]
    exact hvuelve
  | borrarArchivo path =>
    rw [contesta_iff_isSome (.borrarArchivo path) (by simp) (by simp)]
    exact (Osada.osadaEliminarArchivo_isSome h.1).mpr h.2

/-- What is answered, on a disk that is in order, could be. -/
theorem atendible_of_contesta {pedido : Pedido} (hcabe : Cabe pedido) (ho : EnOrden m pedido)
    (h : Contesta m pedido) : Atendible m pedido := by
  obtain ⟨⟨hd, hs⟩, hlee, htrunca, hrenombra, hdir⟩ := ho
  cases pedido with
  | leerArchivo size offset path =>
    obtain ⟨h0, hmax⟩ := hlee size offset path rfl
    exact seLee_of_contesta hd (hcabe.2 size offset path rfl).2 h0 hmax h
  | abrirArchivo path =>
    rw [contesta_iff_isSome (.abrirArchivo path) (by simp) (by simp)] at h
    exact Osada.osadaExisteArchivo_isSome.mp h
  | getDir path =>
    rw [contesta_iff_isSome (.getDir path) (by simp) (by simp)] at h
    exact Osada.osadaEstructuraDirectorio_isSome.mp h
  | getAttr path =>
    rw [contesta_iff_isSome (.getAttr path) (by simp) (by simp)] at h
    exact Osada.osadaGetAtributosArchivo_isSome.mp h
  | utimens path segundos =>
    rw [contesta_iff_isSome (.utimens path segundos) (by simp) (by simp)] at h
    exact Osada.osadaUtimens_isSome.mp h
  | renombrarArchivo desde hasta =>
    rw [contesta_iff_isSome (.renombrarArchivo desde hasta) (by simp) (by simp)] at h
    obtain ⟨hdesde, hhasta⟩ := Osada.osadaRenombrarArchivo_isSome.mp h
    exact ⟨hdesde, hhasta, hrenombra desde hasta rfl⟩
  | crearArchivo path =>
    rw [contesta_iff_isSome (.crearArchivo path) (by simp) (by simp)] at h
    exact ⟨hs, (Osada.osadaCrearArchivo_isSome hs).mp h⟩
  | crearDirectorio path =>
    rw [contesta_crearDirectorio, Osada.osadaCrearDirectorio_vuelve hs] at h
    exact ⟨hs, hdir path rfl, h⟩
  | escribirArchivo offset path buf =>
    rw [contesta_iff_isSome (.escribirArchivo offset path buf) (by simp) (by simp)] at h
    exact ⟨hd, (Osada.osadaEditarArchivo_isSome hd suma_i32_lt).mp h⟩
  | truncarArchivo path offset =>
    rw [contesta_iff_isSome (.truncarArchivo path offset) (by simp) (by simp)] at h
    obtain ⟨hleg, hraiz⟩ := truncar_legible h
    refine ⟨hd, hleg, hraiz, fun l e hl hr he hno => ?_⟩
    have hreg : e.state = .regular := htrunca path offset rfl l e hl hr he hno
    obtain ⟨hp, hdes, _⟩ := Osada.leerPath_entrada hl hr hno
    obtain rfl := Option.some.inj (he.symm.trans hdes)
    exact Osada.entra_of_regular hd hp hreg
  | borrarArchivo path =>
    rw [contesta_iff_isSome (.borrarArchivo path) (by simp) (by simp)] at h
    exact ⟨hd, (Osada.osadaEliminarArchivo_isSome hd).mp h⟩

end Contesta

/-! ## The conversation -/

/-- A disk with nothing in it, and one whose only file is of ten bytes. -/
def sinArchivos : Momento := ⟨.inicial Osada.discoChico, 0, .borrado, fun _ => 0⟩
def conArchivo : Momento := ⟨.inicial (Osada.discoConA 2 10), 0, .borrado, fun _ => 0⟩

theorem sano_sinArchivos : Osada.Sano sinArchivos.pokedex :=
  ⟨Osada.bienFormado_discoChico, Osada.sinPendientes_inicial _⟩

theorem sano_conArchivo : Osada.Sano conArchivo.pokedex where
  bienFormado := Osada.bienFormado_conArchivo (by decide) (by decide) (by decide) (by decide)
    (by decide)
  sinPendientes := Osada.sinPendientes_inicial _

theorem nombreCabe_rutaA : NombreCabe Osada.rutaA := by
  have hnombre : Osada.obtenerNombreDeArchivoDePath Osada.rutaA = some [97] := by decide
  intro nombre h
  obtain rfl := Option.some.inj (hnombre.symm.trans h)
  decide

theorem atendible_escribir : Atendible conArchivo (.escribirArchivo 4 Osada.rutaA [66, 67]) := by
  refine ⟨sano_conArchivo.bienFormado, .inr (by decide), by unfold Osada.EsRaiz; decide, ?_⟩
  intro l e hl _ hd _
  have hlee : Osada.leerPath conArchivo.pokedex.disco .borrado Osada.rutaA = _ :=
    Osada.leerPath_conA 2 10 .borrado
  rw [hlee, Option.some.injEq] at hl
  rw [← hl, Option.some.injEq] at hd
  rw [← hd]
  exact .inr ⟨_, Osada.cadena_conArchivo (by decide), by decide⟩

theorem atendible_leer : Atendible conArchivo (.leerArchivo 4 0 Osada.rutaA) := by
  have hxs : Osada.CadenaDe (Osada.discoConA 2 10) ((Osada.discoConA 2 10).archivos 0) [0, 1] :=
    ⟨Osada.cadena_conArchivo (by decide), by decide, by decide, by decide, by decide⟩
  exact ⟨_, _, [0, 1], Osada.leerPath_conA 2 10 .borrado, rfl, rfl, by decide, hxs,
    List.cons_ne_nil 0 [1], by decide, by decide, by unfold Osada.Alcanza; decide⟩

end TpSo.PokeDex
