import Mathlib.Algebra.BigOperators.Group.Finset.Basic
import Mathlib.Data.Fintype.BigOperators
import TpSo.Osada.Altas
import TpSo.Osada.Corridas
import TpSo.Osada.Cuentas

/-!
# Several clients that make their files grow

Each client is a thread that writes or truncates its own file; between two of its orders the
others run theirs. The check of the free space promises blocks that nobody sets apart: as long
as there is room for what a check promises on top of what the others still may take, no search
fails. A search that does hands out a bit past the data, and its request goes on with that.
-/

namespace TpSo.Osada.Hilado

open Function (update)

inductive Peticion where
  | escribir (inicioBytes bytesAEscribir : ℤ) (archivo : List UInt8)
  | truncar (bytesATruncar : ℤ)

namespace Peticion

/-- A write that does not begin before its file and whose end is an `int`. -/
def Valida : Peticion → Prop
  | escribir inicioBytes bytesAEscribir _ =>
    0 ≤ inicioBytes ∧ inicioBytes + bytesAEscribir < 2147483648
  | truncar bytesATruncar => -2147483648 ≤ bytesATruncar ∧ bytesATruncar < 2147483648

def programa (posicion : ℕ) (descriptor : OsadaFile) : Peticion → Programa ℤ
  | escribir inicioBytes bytesAEscribir archivo =>
    editar posicion descriptor inicioBytes bytesAEscribir archivo
  | truncar bytesATruncar => Hilado.truncar posicion descriptor bytesATruncar

/-- The blocks that the check promises a file of `largo` blocks, when it counts `libres`. -/
def promesa (descriptor : OsadaFile) (largo libres : ℕ) : Peticion → ℕ
  | escribir inicioBytes bytesAEscribir _ =>
    if u32 (descriptor.fileSize - inicioBytes + libres * 64) < u32 bytesAEscribir then 0
    else max 1 (rondas bytesAEscribir inicioBytes) - largo
  | truncar bytesATruncar =>
    if u32 (descriptor.fileSize + libres * 64) < u32 bytesATruncar then 0
    else bloquesDeTruncado bytesATruncar - largo

end Peticion

/-- A client, with what it read of its file and the blocks the file has. -/
structure Cliente where
  posicion : ℕ
  descriptor : OsadaFile
  cadena : List ℕ
  peticion : Peticion

namespace Cliente

def programa (c : Cliente) : Programa ℤ := c.peticion.programa c.posicion c.descriptor

def promesa (c : Cliente) (libres : ℕ) : ℕ :=
  c.peticion.promesa c.descriptor c.cadena.length libres

end Cliente

variable {ι : Type}

structure Clientes (d : Disco) (cliente : ι → Cliente) : Prop where
  enTabla : ∀ i, (cliente i).posicion < 2048
  archivo : ∀ i, (d.archivos (cliente i).posicion).state = .regular
  descriptor : ∀ i, (cliente i).descriptor = d.archivos (cliente i).posicion
  cadena : ∀ i, Chain d.asignaciones uint32Max (cliente i).descriptor.firstBlock (cliente i).cadena
  distintos : ∀ i j, (cliente i).posicion = (cliente j).posicion → i = j
  validas : ∀ i, (cliente i).peticion.Valida

/-- A thread: what is left of its program, and what is left of what its check promised. -/
structure Hilo where
  programa : Programa ℤ
  promesa : ℕ → ℕ
  cupo : Option ℕ

/-- The first check sets what may still be asked for, and every search takes one off. -/
def descontar (promesa : ℕ → ℕ) (cupo : Option ℕ) : (o : Orden) → o.Respuesta → Option ℕ
  | .obtenerBloquesLibres, libres => some (cupo.getD (promesa libres))
  | .obtenerPrimerBloqueLibre, _ => cupo.map (· - 1)
  | .obtenerTablaAsignaciones, _ | .asignar _ _, _ | .escribir _ _ _, _
  | .editarBloqueEnBitmap _ _, _ | .reemplazar _ _, _ => cupo

def Hilo.sigue (h : Hilo) (o : Orden) (k : o.Respuesta → Programa ℤ) (r : o.Respuesta) : Hilo :=
  ⟨k r, h.promesa, descontar h.promesa h.cupo o r⟩

def hilos : Threads Orden Orden.Respuesta Pokedex Hilo where
  exec := Orden.ejecutar
  next h := h.programa.next.map fun c => ⟨c.1, h.sigue c.1 c.2⟩

abbrev Estado (ι : Type) := Threads.Config ι Pokedex Hilo

abbrev Evento (ι : Type) := Threads.Event ι Orden.Respuesta

def comienzo (s : Pokedex) (cliente : ι → Cliente) : Estado ι :=
  ⟨s, fun i => ⟨(cliente i).programa, (cliente i).promesa, none⟩⟩

/-- A search finds a block of the data that is free. -/
def HayLibre (c : Estado ι) (e : Evento ι) : Prop :=
  e.command = .obtenerPrimerBloqueLibre → 0 < libres c.memory.disco

/-- A check, if it is the first of its request, leaves room for what all may still take. -/
def HayLugar [Fintype ι] (c : Estado ι) (e : Evento ι) : Prop :=
  e.command = .obtenerBloquesLibres → (c.thread e.thread).cupo = none →
    (c.thread e.thread).promesa (Osada.obtenerBloquesLibres c.memory.disco) +
      ∑ j, (c.thread j).cupo.getD 0 ≤ libres c.memory.disco

theorem hayLugar_of_ne [Fintype ι] {c : Estado ι} {e : Evento ι}
    (h : e.command ≠ .obtenerBloquesLibres) : HayLugar c e := fun he => absurd he h

def entrega : (o : Orden) → o.Respuesta → List ℤ
  | .obtenerPrimerBloqueLibre, r => if r = -1 then [] else [r]
  | _, _ => []

theorem entrega_of_ne {r : ℤ} (h : r ≠ -1) : entrega .obtenerPrimerBloqueLibre r = [r] := if_neg h

def entregados (es : List (Evento ι)) : List ℤ := es.flatMap fun e => entrega e.command e.answer

/-- No search failed here, and no block past the last one, or number that is none, was linked;
what was written is within one block. -/
def EnRango (n : ℕ) : (o : Orden) → o.Respuesta → Prop
  | .obtenerPrimerBloqueLibre, r => 0 ≤ r ∧ r < n
  | .asignar posicion valor, _ => posicion < n ∧ (valor < n ∨ valor = uint32Max)
  | .escribir bloque posicion bytes, _ =>
    bloque < n ∧ 0 ≤ posicion ∧ posicion + bytes.length ≤ 64
  | _, _ => True

/-! ## The disk and the accounts -/

section Libro
variable [Fintype ι]

theorem sum_update_add [DecidableEq ι] {α : Type} (f : ι → α) (w : α → ℕ) (t : ι) (a : α) :
    ∑ j, w (update f t a j) + w (f t) = ∑ j, w (f j) + w a := by
  have hw : ∀ j, w (update f t a j) = update (fun j => w (f j)) t (w a) j := by
    intro j
    by_cases hj : j = t
    · subst hj
      simp
    · simp [hj]
  simp only [hw]
  rw [Finset.sum_update_of_mem (Finset.mem_univ t), ← Finset.sum_sdiff
    (Finset.singleton_subset_iff.mpr (Finset.mem_univ t)), Finset.sum_singleton]
  ring

variable {n : ℕ}

/-- What all may still ask for. -/
def debido (g : ι → Cuenta n) : ℕ := ∑ j, (g j).cupo.getD 0

theorem debido_update [DecidableEq ι] (g : ι → Cuenta n) (t : ι) (a : Cuenta n) :
    debido (update g t a) + (g t).cupo.getD 0 = debido g + a.cupo.getD 0 :=
  sum_update_add g (fun a => a.cupo.getD 0) t a

theorem cupo_le_debido (g : ι → Cuenta n) (t : ι) : (g t).cupo.getD 0 ≤ debido g :=
  Finset.single_le_sum (f := fun j => (g j).cupo.getD 0) (fun _ _ => Nat.zero_le _)
    (Finset.mem_univ t)

/-- The accounts say what is on the disk, and no block is in two of them; `dados` are the blocks
handed out so far. -/
structure Libro (seguro : Prop) (H : OsadaHeader) (d : Disco) (g : ι → Cuenta H.dataBlocks)
    (dados : List ℤ) : Prop where
  header : d.header = H
  mapeado : Mapeado d
  propios : ∀ i, ∀ b ∈ (g i).propios,
    bit d.bitmap (d.inicio + b) = true ∧ d.asignaciones b = (g i).celdas b
  ajenos : ∀ i j, i ≠ j → ∀ b ∈ (g i).propios, b ∉ (g j).propios
  nodup : dados.Nodup
  marcados : ∀ r ∈ dados, bit d.bitmap (d.inicio + u32 r) = true ∧
    ∀ i, u32 r ∈ (g i).propios → u32 r ∈ (g i).tomados
  alcanza : seguro → debido g ≤ libres d

namespace Libro

variable {seguro : Prop} {H : OsadaHeader} {s s' : Pokedex} {d d' : Disco}
  {g : ι → Cuenta H.dataBlocks} {dados : List ℤ} {t : ι}

theorem congr (h : Libro seguro H d g dados) (hheader : d'.header = d.header)
    (hbitmap : d'.bitmap = d.bitmap) (hasig : d'.asignaciones = d.asignaciones) :
    Libro seguro H d' g dados where
  header := hheader.trans h.header
  mapeado := h.mapeado.congr hheader hbitmap
  propios := by rw [hbitmap, hasig, inicio_congr hheader]; exact h.propios
  ajenos := h.ajenos
  nodup := h.nodup
  marcados := by rw [hbitmap, inicio_congr hheader]; exact h.marcados
  alcanza := by rw [libres, bloquesLibres_congr hheader hbitmap]; exact h.alcanza

/-- What the check counts is nobody's. -/
theorem libres_add_propios (h : Libro seguro H d g dados) (t : ι) :
    Osada.obtenerBloquesLibres d + (g t).propios.card ≤ H.dataBlocks := by
  have hdisj : Disjoint (bloquesLibres d) (g t).propios := by
    rw [Finset.disjoint_left]
    intro b hlibre hb
    have hset := (h.propios t b hb).1
    rw [(mem_bloquesLibres.mp hlibre).2] at hset
    exact Bool.false_ne_true hset
  have hsub : bloquesLibres d ∪ (g t).propios ⊆ Finset.range H.dataBlocks := by
    intro b hb
    rw [Finset.mem_range]
    cases Finset.mem_union.mp hb with
    | inl hb => exact h.header ▸ (mem_bloquesLibres.mp hb).1
    | inr hb => exact (g t).enRango b hb
  have hcard := Finset.card_le_card hsub
  rw [Finset.card_union_of_disjoint hdisj, Finset.card_range] at hcard
  rw [h.mapeado.obtenerBloquesLibres_eq]
  exact hcard

variable [DecidableEq ι]

theorem update (h : Libro seguro H d g dados) (nuevos : List ℤ) {a : Cuenta H.dataBlocks}
    (hheader : d'.header = H) (hmapeado : Mapeado d')
    (hpropios : ∀ b ∈ a.propios, bit d'.bitmap (d'.inicio + b) = true ∧
      d'.asignaciones b = a.celdas b ∧ ∀ j, j ≠ t → b ∉ (g j).propios)
    (hotros : ∀ i, i ≠ t → ∀ b ∈ (g i).propios,
      bit d'.bitmap (d'.inicio + b) = true ∧ d'.asignaciones b = d.asignaciones b)
    (hnodup : (dados ++ nuevos).Nodup)
    (hmarcados : ∀ r ∈ dados ++ nuevos, bit d'.bitmap (d'.inicio + u32 r) = true ∧
      (u32 r ∈ a.propios → u32 r ∈ a.tomados) ∧
      ∀ i, i ≠ t → u32 r ∈ (g i).propios → u32 r ∈ (g i).tomados)
    (halcanza : seguro → debido (Function.update g t a) ≤ libres d') :
    Libro seguro H d' (Function.update g t a) (dados ++ nuevos) where
  header := hheader
  mapeado := hmapeado
  propios i b hb := by
    by_cases hi : i = t
    · subst hi
      rw [Function.update_self] at hb ⊢
      exact ⟨(hpropios b hb).1, (hpropios b hb).2.1⟩
    · rw [Function.update_of_ne hi] at hb ⊢
      obtain ⟨hbit, hcelda⟩ := hotros i hi b hb
      exact ⟨hbit, hcelda.trans (h.propios i b hb).2⟩
  ajenos i j hij b hb hb' := by
    by_cases hi : i = t
    · subst hi
      rw [Function.update_self] at hb
      rw [Function.update_of_ne (Ne.symm hij)] at hb'
      exact (hpropios b hb).2.2 j (Ne.symm hij) hb'
    · rw [Function.update_of_ne hi] at hb
      by_cases hj : j = t
      · subst hj
        rw [Function.update_self] at hb'
        exact (hpropios b hb').2.2 i hi hb
      · rw [Function.update_of_ne hj] at hb'
        exact h.ajenos i j hij b hb hb'
  nodup := hnodup
  marcados r hr := by
    obtain ⟨hbit, hself, hothers⟩ := hmarcados r hr
    refine ⟨hbit, fun i hi => ?_⟩
    by_cases hit : i = t
    · subst hit
      rw [Function.update_self] at hi ⊢
      exact hself hi
    · rw [Function.update_of_ne hit] at hi ⊢
      exact hothers i hit hi
  alcanza := halcanza

/-- What an order did: the account of its thread follows the protocol, and the book is in order
again. -/
def Anotado (seguro : Prop) (promesa : ℕ → ℕ) (d : Disco) (g : ι → Cuenta H.dataBlocks)
    (dados : List ℤ) (t : ι) (o : Orden) (r : o.Respuesta) : Prop :=
  ∃ a, (protocolo H promesa seguro).post o (g t) r a ∧ a.cupo = descontar promesa (g t).cupo o r ∧
    Libro seguro H d (Function.update g t a) (dados ++ entrega o r) ∧ EnRango H.dataBlocks o r

variable {promesa : ℕ → ℕ}

theorem anotado_igual {o : Orden} {r : o.Respuesta} (h : Libro seguro H d g dados)
    (hpost : (protocolo H promesa seguro).post o (g t) r (g t))
    (hcupo : (g t).cupo = descontar promesa (g t).cupo o r) (hentrega : entrega o r = [])
    (hrango : EnRango H.dataBlocks o r) :
    Anotado seguro promesa d g dados t o r := by
  refine ⟨g t, hpost, hcupo, ?_, hrango⟩
  rw [Function.update_eq_self, hentrega, List.append_nil]
  exact h

theorem anotado_libres (h : Libro seguro H d g dados)
    (hlugar : seguro → (g t).cupo = none →
      promesa (Osada.obtenerBloquesLibres d) + debido g ≤ libres d) :
    Anotado seguro promesa d g dados t .obtenerBloquesLibres (Osada.obtenerBloquesLibres d) := by
  generalize hlibres : Osada.obtenerBloquesLibres d = libres' at hlugar ⊢
  refine ⟨(g t).conPromesa (promesa libres'), ⟨hlibres ▸ h.libres_add_propios t, rfl⟩, rfl, ?_,
    trivial⟩
  refine h.update [] h.header h.mapeado (fun b hb => ?_)
    (fun i _ b hb => ⟨(h.propios i b hb).1, rfl⟩) ?_ ?_ fun hseguro => ?_
  · obtain ⟨hbit, hcelda⟩ := h.propios t b hb
    exact ⟨hbit, hcelda, fun j hj => h.ajenos t j (Ne.symm hj) b hb⟩
  · rw [List.append_nil]
    exact h.nodup
  · intro r hr
    rw [List.append_nil] at hr
    obtain ⟨hbit, htomado⟩ := h.marcados r hr
    exact ⟨hbit, htomado t, fun i _ => htomado i⟩
  · have hsum := debido_update g t ((g t).conPromesa (promesa libres'))
    have halcanza := h.alcanza hseguro
    have hnuevo : ((g t).conPromesa (promesa libres')).cupo.getD 0 =
        (g t).cupo.getD (promesa libres') := rfl
    rw [hnuevo] at hsum
    rcases hcupo : (g t).cupo with _ | m
    · have hle := hlugar hseguro hcupo
      rw [hcupo, Option.getD_none, Option.getD_none] at hsum
      omega
    · rw [hcupo, Option.getD_some, Option.getD_some] at hsum
      omega

theorem anotado_asignar {posicion valor : ℕ} (h : Libro seguro H s.disco g dados)
    (hpre : (protocolo H promesa seguro).pre (.asignar posicion valor) (g t)) :
    Anotado seguro promesa (s.escribir (.asignacion posicion valor)).disco g dados t
      (.asignar posicion valor) ⟨⟩ := by
  obtain ⟨hp, hv⟩ := hpre
  refine ⟨(g t).conCelda posicion valor, rfl, rfl, ?_, (g t).enRango _ hp,
    hv.imp_left ((g t).enRango _)⟩
  have hdebido : debido (Function.update g t ((g t).conCelda posicion valor)) = debido g :=
    Nat.add_right_cancel (debido_update g t _)
  have hceldas : ∀ b < H.dataBlocks,
      (s.escribir (.asignacion posicion valor)).disco.asignaciones b =
        if b = posicion then valor else s.disco.asignaciones b := by
    intro b hb
    have hlt : posicion < s.disco.header.dataBlocks := h.header ▸ (g t).enRango posicion hp
    rw [Pokedex.escribir_disco, aplicar_asignacion_asignaciones _ hlt, Function.update_apply]
  have hajena : ∀ i, i ≠ t → ∀ b ∈ (g i).propios, b ≠ posicion := by
    rintro i hi b hb rfl
    exact h.ajenos i t hi b hb hp
  refine h.update [] ((aplicar_header _ _).trans h.header) (h.mapeado.congr rfl rfl)
    (fun b hb => ?_) (fun i hi b hb => ?_) ?_ ?_ fun hseguro => ?_
  · obtain ⟨hbit, hcelda⟩ := h.propios t b hb
    refine ⟨hbit, ?_, fun j hj => h.ajenos t j (Ne.symm hj) b hb⟩
    rw [hceldas b ((g t).enRango b hb), hcelda]
    exact (Function.update_apply _ _ _ _).symm
  · refine ⟨(h.propios i b hb).1, ?_⟩
    rw [hceldas b ((g i).enRango b hb), if_neg (hajena i hi b hb)]
  · rw [List.append_nil]
    exact h.nodup
  · intro r hr
    rw [List.append_nil] at hr
    obtain ⟨hbit, htomado⟩ := h.marcados r hr
    exact ⟨hbit, htomado t, fun i _ => htomado i⟩
  · rw [hdebido]
    exact h.alcanza hseguro

theorem anotado_bit {nBloque : ℕ} {ocupado : Bool} {r : ℤ} (h : Libro seguro H s.disco g dados)
    (hpre : (protocolo H promesa seguro).pre (.editarBloqueEnBitmap nBloque ocupado) (g t))
    (hexec : Osada.editarBloqueEnBitmap nBloque ocupado s = (some r, s')) :
    Anotado seguro promesa s'.disco g dados t (.editarBloqueEnBitmap nBloque ocupado) r := by
  obtain ⟨hocupado, hpropio, hviejo⟩ := hpre
  subst hocupado
  have hlt : nBloque < s.disco.header.dataBlocks := by
    rw [h.header]
    exact (g t).enRango nBloque hpropio
  have hs' : s' = s.marcarBit (s.disco.inicio + nBloque) false := by
    rw [editarBloqueEnBitmap_apply h.mapeado.toMedido hlt false] at hexec
    exact (Prod.mk.inj hexec).2.symm
  subst hs'
  have hdebido : debido (Function.update g t ((g t).sin nBloque)) = debido g :=
    Nat.add_right_cancel (debido_update g t _)
  have hbits := h.mapeado.lt_bits hlt
  have hbit : ∀ k, k ≠ s.disco.inicio + nBloque → bit
      (s.marcarBit (s.disco.inicio + nBloque) false).disco.bitmap k = bit s.disco.bitmap k :=
    fun k hk => by rw [bit_marcarBit s hbits, if_neg hk]
  refine ⟨(g t).sin nBloque, rfl, rfl, ?_, trivial⟩
  refine h.update [] h.header (h.mapeado.marcarBit hlt false) (fun b hb => ?_)
    (fun i hi b hb => ?_) ?_ ?_ fun hseguro => ?_
  · obtain ⟨hne, hb⟩ := Finset.mem_erase.mp hb
    obtain ⟨hset, hcelda⟩ := h.propios t b hb
    refine ⟨?_, hcelda, fun j hj => h.ajenos t j (Ne.symm hj) b hb⟩
    rw [marcarBit_inicio, hbit _ (by omega)]
    exact hset
  · have hne : b ≠ nBloque := fun he => h.ajenos i t hi b hb (he ▸ hpropio)
    refine ⟨?_, rfl⟩
    rw [marcarBit_inicio, hbit _ (by omega)]
    exact (h.propios i b hb).1
  · rw [List.append_nil]
    exact h.nodup
  · intro r hr
    rw [List.append_nil] at hr
    obtain ⟨hset, htomado⟩ := h.marcados r hr
    -- what was handed out is not what is given back
    have hne : u32 r ≠ nBloque := fun he => hviejo (he ▸ htomado t (he ▸ hpropio))
    refine ⟨?_, fun hmem => htomado t (Finset.mem_of_mem_erase hmem), fun i _ => htomado i⟩
    rw [marcarBit_inicio, hbit _ (by omega)]
    exact hset
  · rw [hdebido, libres, bloquesLibres_marcarBit h.mapeado.toMedido hlt, if_neg Bool.false_ne_true]
    exact le_trans (h.alcanza hseguro) (Finset.card_le_card (Finset.subset_insert _ _))

theorem anotado_bloque {b : ℕ} (h : Libro seguro H s.disco g dados)
    (hb : b ∈ bloquesLibres s.disco) (hcupo : seguro → ∃ m, (g t).cupo = some (m + 1)) :
    Anotado seguro promesa (s.marcarBit (s.disco.inicio + b) true).disco g dados t
      .obtenerPrimerBloqueLibre (b : ℤ) := by
  obtain ⟨hlt, hlibre⟩ := mem_bloquesLibres.mp hb
  have hltH : b < H.dataBlocks := h.header ▸ hlt
  have hbits := h.mapeado.lt_bits hlt
  have hgrande := h.mapeado.dataBlocks_lt
  have hcast : u32 (b : ℤ) = b := u32_natCast_of_lt (by unfold uint32Max at hgrande; omega)
  have hde_nadie : ∀ i, b ∉ (g i).propios := by
    intro i hmem
    rw [(h.propios i b hmem).1] at hlibre
    exact Bool.false_ne_true hlibre.symm
  have hentrega : entrega .obtenerPrimerBloqueLibre (b : ℤ) = [(b : ℤ)] :=
    entrega_of_ne (by omega)
  have hbit : ∀ k, bit s.disco.bitmap k = true →
      bit (s.marcarBit (s.disco.inicio + b) true).disco.bitmap k = true := by
    intro k hk
    rw [bit_marcarBit s hbits]
    split
    · rfl
    · exact hk
  refine ⟨(g t).conBloque b (s.disco.asignaciones b) hltH,
    ⟨b, _, hltH, rfl, hde_nadie t, rfl⟩, rfl, ?_, Int.natCast_nonneg b, Int.ofNat_lt.mpr hltH⟩
  rw [hentrega]
  refine h.update [(b : ℤ)] h.header (h.mapeado.marcarBit hlt true) (fun c hc => ?_)
    (fun i hi c hc => ⟨hbit _ (h.propios i c hc).1, rfl⟩) ?_ (fun r hr => ?_) fun hseguro => ?_
  · cases Finset.mem_insert.mp hc with
    | inl hcb =>
      subst hcb
      refine ⟨?_, ?_, fun j _ => hde_nadie j⟩
      · rw [marcarBit_inicio, bit_marcarBit s hbits, if_pos rfl]
      · rw [marcarBit_asignaciones]
        exact (Function.update_self c (s.disco.asignaciones c) (g t).celdas).symm
    | inr hc =>
      have hne : c ≠ b := fun he => hde_nadie t (he ▸ hc)
      obtain ⟨hset, hcelda⟩ := h.propios t c hc
      exact ⟨hbit _ hset, hcelda.trans (Function.update_of_ne hne _ _).symm,
        fun j hj => h.ajenos t j (Ne.symm hj) c hc⟩
  · -- its bit was clear: it was not among those handed out
    rw [List.nodup_append]
    refine ⟨h.nodup, List.nodup_singleton _, ?_⟩
    rintro r hr r' hr' rfl
    rw [List.mem_singleton.mp hr'] at hr
    have hset := (h.marcados b hr).1
    rw [hcast, hlibre] at hset
    exact Bool.false_ne_true hset
  · cases List.mem_append.mp hr with
    | inl hr =>
      obtain ⟨hset, htomado⟩ := h.marcados r hr
      refine ⟨hbit _ hset, fun hmem => ?_, fun i _ => htomado i⟩
      cases Finset.mem_insert.mp hmem with
      | inl he => exact Finset.mem_insert.mpr (.inl he)
      | inr hmem => exact Finset.mem_insert_of_mem (htomado t hmem)
    | inr hr =>
      rw [List.mem_singleton.mp hr, hcast]
      refine ⟨?_, fun _ => Finset.mem_insert_self _ _, fun i _ hmem => absurd hmem (hde_nadie i)⟩
      rw [marcarBit_inicio, bit_marcarBit s hbits, if_pos rfl]
  · obtain ⟨m, hm⟩ := hcupo hseguro
    have hsum := debido_update g t ((g t).conBloque b (s.disco.asignaciones b) hltH)
    have hmenos : ((g t).conBloque b (s.disco.asignaciones b) hltH).cupo = some m := by
      rw [Cuenta.conBloque, hm]
      rfl
    rw [hm, hmenos, Option.getD_some, Option.getD_some] at hsum
    have halcanza := h.alcanza hseguro
    rw [libres, bloquesLibres_marcarBit h.mapeado.toMedido hlt, if_pos rfl, Finset.card_erase_of_mem hb]
    change debido g ≤ (bloquesLibres s.disco).card at halcanza
    omega

theorem anotado_pedir {r : ℤ} (h : Libro seguro H s.disco g dados)
    (hlibre : ¬ seguro → 0 < libres s.disco)
    (hpre : (protocolo H promesa seguro).pre .obtenerPrimerBloqueLibre (g t))
    (hexec : Osada.obtenerPrimerBloqueLibre s = (some r, s')) :
    Anotado seguro promesa s'.disco g dados t .obtenerPrimerBloqueLibre r := by
  have hmas : 0 < libres s.disco := by
    by_cases hseguro : seguro
    · obtain ⟨m, hm⟩ := hpre hseguro
      have hle := cupo_le_debido g t
      rw [hm, Option.getD_some] at hle
      exact lt_of_lt_of_le (by omega) (h.alcanza hseguro)
    · exact hlibre hseguro
  obtain ⟨b, hb, _, hrun⟩ := obtenerPrimerBloqueLibre_apply h.mapeado.toMedido hmas
  rw [hrun] at hexec
  obtain ⟨hr, hs'⟩ := Op.some_inj hexec
  rw [← hr, ← hs']
  exact anotado_bloque h hb hpre

theorem anotado {o : Orden} {r : o.Respuesta} (h : Libro seguro H s.disco g dados)
    (hlibre : ¬ seguro → o = .obtenerPrimerBloqueLibre → 0 < libres s.disco)
    (hpre : (protocolo H promesa seguro).pre o (g t)) (hexec : o.ejecutar s = (some r, s'))
    (hlugar : seguro → o = .obtenerBloquesLibres → (g t).cupo = none →
      promesa (Osada.obtenerBloquesLibres s.disco) + debido g ≤ libres s.disco) :
    Anotado seguro promesa s'.disco g dados t o r := by
  cases o with
  | obtenerBloquesLibres =>
    obtain ⟨rfl, rfl⟩ : Osada.obtenerBloquesLibres s.disco = r ∧ s = s' := Op.some_inj hexec
    exact anotado_libres h fun hseguro => hlugar hseguro rfl
  | obtenerTablaAsignaciones =>
    obtain ⟨rfl, rfl⟩ : s.disco.asignaciones = r ∧ s = s' := Op.some_inj hexec
    exact anotado_igual h ⟨fun b hb => (h.propios t b hb).2, rfl⟩ rfl rfl trivial
  | obtenerPrimerBloqueLibre =>
    exact anotado_pedir h (fun hseguro => hlibre hseguro rfl) hpre hexec
  | asignar posicion valor =>
    obtain ⟨_, rfl⟩ : PUnit.unit = r ∧ s.escribir (.asignacion posicion valor) = s' :=
      Op.some_inj hexec
    exact anotado_asignar h hpre
  | escribir bloque posicion bytes =>
    obtain ⟨_, rfl⟩ : PUnit.unit = r ∧ s.escribir (.datos
        (u32 (bloque * 64 + s.disco.inicio * 64 + posicion)) bytes) = s' := Op.some_inj hexec
    exact anotado_igual (h.congr rfl rfl rfl) rfl rfl rfl ⟨(g t).enRango bloque hpre.1, hpre.2⟩
  | editarBloqueEnBitmap nBloque ocupado => exact anotado_bit h hpre hexec
  | reemplazar posicion descriptor =>
    obtain ⟨hheader, hbitmap, hasig⟩ : s'.disco.header = s.disco.header ∧
        s'.disco.bitmap = s.disco.bitmap ∧ s'.disco.asignaciones = s.disco.asignaciones := by
      rw [← (Prod.mk.inj hexec).2]
      exact ⟨rfl, rfl, rfl⟩
    exact anotado_igual (h.congr hheader hbitmap hasig) rfl rfl rfl trivial

end Libro

/-! ## Runs -/

/-- In the middle of a run: every thread has an account that its program goes on from. -/
def EnMarcha (seguro : Prop) (H : OsadaHeader) (c : Estado ι) (es : List (Evento ι)) : Prop :=
  ∃ g : ι → Cuenta H.dataBlocks, Libro seguro H c.memory.disco g (entregados es) ∧
    (∀ i, (protocolo H (c.thread i).promesa seguro).Follows (fun _ _ => True)
      (c.thread i).programa (g i)) ∧
    (∀ i, (c.thread i).cupo = (g i).cupo) ∧ ∀ e ∈ es, EnRango H.dataBlocks e.command e.answer

variable {seguro : Prop} {H : OsadaHeader} {c c' : Estado ι} {e : Evento ι} {es : List (Evento ι)}

theorem next_eq_some {h : Hilo} {o : Orden} {k : o.Respuesta → Hilo}
    (hnext : hilos.next h = some ⟨o, k⟩) : ∃ k', h.programa = .call o k' ∧ k = h.sigue o k' := by
  rcases h with ⟨_ | _ | ⟨o', k'⟩, promesa, cupo⟩
  · cases hnext
  · cases hnext
  · cases hnext
    exact ⟨k', rfl, rfl⟩

theorem enMarcha_paso [DecidableEq ι] (h : EnMarcha seguro H c es)
    (hlibre : ¬ seguro → HayLibre c e) (hlugar : seguro → HayLugar c e) (hstep : hilos.Step c e c') :
    EnMarcha seguro H c' (es ++ [e]) := by
  obtain ⟨g, hlibro, hsiguen, hcupo, hrango⟩ := h
  obtain ⟨k, s', hnext, hexec, rfl⟩ := hstep.cases
  obtain ⟨k', hprograma, rfl⟩ := next_eq_some hnext
  rcases e with ⟨t, o, r⟩
  simp only at hexec hprograma
  have hsigue := hsiguen t
  rw [hprograma] at hsigue
  have hdebido : ∑ j, (c.thread j).cupo.getD 0 = debido g :=
    Finset.sum_congr rfl fun j _ => by rw [hcupo j]
  have hanotado : Libro.Anotado seguro (c.thread t).promesa s'.disco g (entregados es) t o r := by
    refine Libro.anotado hlibro hlibre hsigue.1 hexec fun hseguro ho hnone => ?_
    rw [← hdebido]
    exact hlugar hseguro ho ((hcupo t).trans hnone)
  obtain ⟨a, hpost, hcupo', hlibro', hrango'⟩ := hanotado
  refine ⟨update g t a, ?_, fun i => ?_, fun i => ?_, fun e he => ?_⟩
  · rw [entregados, List.flatMap_append, List.flatMap_singleton]
    exact hlibro'
  · by_cases hi : i = t
    · subst hi
      simp only [Function.update_self]
      exact hsigue.2 r a hpost
    · simp only [Function.update_of_ne hi]
      exact hsiguen i
  · by_cases hi : i = t
    · subst hi
      simp only [Function.update_self, Hilo.sigue]
      rw [hcupo', hcupo]
    · simp only [Function.update_of_ne hi]
      exact hcupo i
  · cases List.mem_append.mp he with
    | inl he => exact hrango e he
    | inr he =>
      rw [List.mem_singleton.mp he]
      exact hrango'

/-- What a client's check promises, with the blocks of its file, is all that it asks for. -/
theorem sigue_peticion {g : Cuenta H.dataBlocks} {x : Cliente}
    (hgrande : H.dataBlocks * 64 < 2147483648) (hvalida : x.peticion.Valida)
    (htamanio : x.descriptor.fileSize ≤ 64 * x.cadena.length)
    (hcadena : Chain g.celdas uint32Max x.descriptor.firstBlock x.cadena)
    (hpropios : ∀ b ∈ x.cadena, b ∈ g.propios ∧ b ∉ g.tomados) (hcupo : g.cupo = none) :
    (protocolo H x.promesa seguro).Follows (fun _ _ => True) x.programa g := by
  have hmax : H.dataBlocks < uint32Max := by
    unfold uint32Max
    omega
  rcases x with ⟨posicion, descriptor, cadena, peticion⟩
  cases peticion with
  | escribir inicioBytes bytesAEscribir archivo =>
    refine sigue_editar hmax hcadena (fun b hb => (hpropios b hb).1) hvalida.1
      fun _ r hcheck => ?_
    rw [hcupo, Option.getD_none, Cliente.promesa, Peticion.promesa, if_neg hcheck]
    exact le_add_tsub
  | truncar bytesATruncar =>
    refine sigue_truncar hgrande hvalida htamanio hcadena hpropios fun _ r hcheck => ?_
    rw [hcupo, Option.getD_none, Cliente.promesa, Peticion.promesa, if_neg hcheck]
    exact le_add_tsub

theorem enMarcha_comienzo {s : Pokedex} {cliente : ι → Cliente} (hbien : BienFormado s.disco)
    (hclientes : Clientes s.disco cliente) :
    EnMarcha seguro s.disco.header (comienzo s cliente) [] := by
  obtain ⟨cad, hocu, hdes⟩ := hbien.ocupacion
  have hcad : ∀ i, (cliente i).cadena = cad (cliente i).posicion := by
    intro i
    refine (hclientes.cadena i).unique ?_
    rw [hclientes.descriptor i]
    exact hocu.cadena (hclientes.enTabla i) (hclientes.archivo i)
  have henRango : ∀ i, ∀ b ∈ (cliente i).cadena.toFinset, b < s.disco.header.dataBlocks := by
    intro i b hb
    rw [List.mem_toFinset, hcad i] at hb
    exact hocu.enRango _ b hb
  let g : ι → Cuenta s.disco.header.dataBlocks := fun i =>
    ⟨(cliente i).cadena.toFinset, ∅, s.disco.asignaciones, none, henRango i⟩
  have hdebido : debido g = 0 := Finset.sum_const_zero
  refine ⟨g, ?_, fun i => ?_, fun i => rfl, fun e he => absurd he List.not_mem_nil⟩
  · refine ⟨rfl, hocu.toMapeado, fun i b hb => ⟨?_, rfl⟩, fun i j hij b hb hb' => ?_,
      List.nodup_nil, fun r hr => absurd hr List.not_mem_nil, fun _ => hdebido ▸ Nat.zero_le _⟩
    · have hlt := henRango i b hb
      rw [List.mem_toFinset, hcad i] at hb
      exact (hocu.bits b hlt).mpr ⟨_, hb⟩
    · rw [List.mem_toFinset, hcad i] at hb
      rw [List.mem_toFinset, hcad j] at hb'
      exact hij (hclientes.distintos i j (hocu.fat.owner_unique hb hb'))
  · have htam := hdes.tamanio hocu (hclientes.enTabla i) (hclientes.archivo i)
    rw [← hclientes.descriptor i, ← hcad i] at htam
    have hsuma := hocu.suma
    have hchico := hocu.chico
    exact sigue_peticion (by omega) (hclientes.validas i) htam.1 (hclientes.cadena i)
      (fun b hb => ⟨List.mem_toFinset.mpr hb, Finset.notMem_empty b⟩) rfl

/-- However the clients take their turns: as long as every search finds a free block, no block is
handed out twice, and all that is linked or written is a block of the disk. That is so as long as
every check leaves room for what all may still take. -/
theorem bloques_distintos [DecidableEq ι] {s : Pokedex} {cliente : ι → Cliente}
    (hbien : BienFormado s.disco) (hclientes : Clientes s.disco cliente) :
    (Run (fun c e c' => HayLibre c e ∧ hilos.Step c e c') (comienzo s cliente) es c →
      (entregados es).Nodup ∧
        ∀ e ∈ es, EnRango s.disco.header.dataBlocks e.command e.answer) ∧
    (Run (fun c e c' => HayLugar c e ∧ hilos.Step c e c') (comienzo s cliente) es c →
      (entregados es).Nodup ∧
        ∀ e ∈ es, EnRango s.disco.header.dataBlocks e.command e.answer) := by
  constructor
  · intro h
    have hmarcha : EnMarcha False s.disco.header c es :=
      h.invariant_events (I := EnMarcha False s.disco.header)
        (fun c e c' es hc hstep => enMarcha_paso hc (fun _ => hstep.1) (fun hf => hf.elim)
          hstep.2)
        (enMarcha_comienzo hbien hclientes)
    obtain ⟨g, hlibro, _, _, hrango⟩ := hmarcha
    exact ⟨hlibro.nodup, hrango⟩
  · intro h
    have hmarcha : EnMarcha True s.disco.header c es :=
      h.invariant_events (I := EnMarcha True s.disco.header)
        (fun c e c' es hc hstep => enMarcha_paso hc (fun hno => absurd trivial hno)
          (fun _ => hstep.1) hstep.2)
        (enMarcha_comienzo hbien hclientes)
    obtain ⟨g, hlibro, _, _, hrango⟩ := hmarcha
    exact ⟨hlibro.nodup, hrango⟩

end Libro

/-! ## Two clients -/

theorem hasta_llamadas {descriptor : OsadaFile} {inicio : ℤ}
    (hvacio : descriptor.firstBlock = uint32Max) (hn : inicio ≠ 0) :
    ∃ k, hasta descriptor inicio = .call .obtenerTablaAsignaciones k ∧
      ∀ asignaciones, ∃ k', k asignaciones = .call .obtenerPrimerBloqueLibre k' := by
  refine ⟨_, rfl, fun asignaciones => ?_⟩
  simp only [if_pos hn, primero, if_pos hvacio]
  exact ⟨_, rfl⟩

/-- The first orders of a truncation of an empty file that is not turned down. -/
theorem truncar_llamadas {posicion libres : ℕ} {descriptor : OsadaFile} {n : ℤ}
    (hcheck : ¬ u32 (descriptor.fileSize + libres * 64) < u32 n)
    (hvacio : descriptor.firstBlock = uint32Max) (hn : i32 (u32 n) ≠ 0) :
    ∃ k k', truncar posicion descriptor n = .call .obtenerBloquesLibres k ∧
      k libres = .call .obtenerTablaAsignaciones k' ∧
        ∀ asignaciones, ∃ k'', k' asignaciones = .call .obtenerPrimerBloqueLibre k'' := by
  obtain ⟨k, hhasta, hk⟩ := hasta_llamadas hvacio hn
  let resto : ℤ × OsadaFile → Programa ℤ := fun r =>
    if r.1 = 1 then completar posicion r.2 n >>= fun _ => pure r.1 else pure r.1
  refine ⟨_, fun asignaciones => (k asignaciones).bind resto, rfl, ?_, fun asignaciones => ?_⟩
  · change Prog.bind (if u32 (descriptor.fileSize + libres * 64) < u32 n then
      pure (noHayEspacio, descriptor) else hasta descriptor (i32 (u32 n))) resto = _
    rw [if_neg hcheck, hhasta]
    rfl
  · obtain ⟨k', hk'⟩ := hk asignaciones
    change ∃ k'', (k asignaciones).bind resto = _
    rw [hk']
    exact ⟨_, rfl⟩

theorem paso_de_llamada [DecidableEq ι] {c : Estado ι} {s' : Pokedex} {i : ι} {o : Orden}
    {k : o.Respuesta → Programa ℤ} {r : o.Respuesta} (hcall : (c.thread i).programa = .call o k)
    (hexec : o.ejecutar c.memory = (some r, s')) :
    ∃ c', hilos.Step c ⟨i, o, r⟩ c' ∧ c'.memory = s' ∧ (c'.thread i).programa = k r ∧
      ∀ j, j ≠ i → c'.thread j = c.thread j := by
  have hnext : hilos.next (c.thread i) = some ⟨o, (c.thread i).sigue o k⟩ := by
    simp only [hilos, hcall]
    rfl
  refine ⟨_, .mk hnext hexec, rfl, ?_, fun j hj => Function.update_of_ne hj _ _⟩
  change (update c.thread i ((c.thread i).sigue o k r) i).programa = k r
  rw [Function.update_self]
  rfl

theorem ejecutar_obtenerTablaAsignaciones (s : Pokedex) :
    Orden.obtenerTablaAsignaciones.ejecutar s = (some s.disco.asignaciones, s) := rfl

theorem corrida_sola [DecidableEq ι] {c : Estado ι} {i : ι} {s' : Pokedex} {a : ℤ}
    (h : (c.thread i).programa.seguido c.memory = (some a, s')) :
    ∃ es c', Run hilos.Step c es c' ∧ c'.memory = s' ∧ ∀ j, j ≠ i → c'.thread j = c.thread j := by
  obtain ⟨es, t', hrun, _⟩ := Prog.run_alone hilos Hilo.programa (fun t o k hcall =>
    ⟨t.sigue o k, by simp only [hilos, hcall]; rfl, fun r => rfl⟩) i c.thread h
  rw [Function.update_eq_self] at hrun
  exact ⟨es, _, hrun, rfl, fun j hj => Function.update_of_ne hj _ _⟩

/-- A disk with two empty files and 16 free blocks. -/
def discoConDos : Disco :=
  { discoChico with archivos := fun i => if i < 2 then Alta.entradaNueva i else .borrado }

theorem discoConDos_vivo {i : ℕ} (h : (discoConDos.archivos i).state ≠ .deleted) : i < 2 := by
  by_contra hi
  exact h (congrArg OsadaFile.state (if_neg hi))

theorem discoConDos_vacios {i : ℕ} (hi : i < 2) : discoConDos.archivos i = Alta.entradaNueva i :=
  if_pos hi

/-- No chain has a block: the marks are those of a disk without entries. -/
theorem discoConDos_cadena {i b : ℕ} {xs : List ℕ} (hreg : (discoConDos.archivos i).state = .regular)
    (hc : Chain discoConDos.asignaciones uint32Max (discoConDos.archivos i).firstBlock xs) :
    b ∉ xs := by
  rw [discoConDos_vacios (discoConDos_vivo (by simp [hreg]))] at hc
  rw [hc.eq_nil_iff.mpr rfl]
  exact List.not_mem_nil

theorem bienFormado_discoConDos : BienFormado discoConDos where
  suma := bienFormado_discoChico.suma
  alcanza := bienFormado_discoChico.alcanza
  chico := bienFormado_discoChico.chico
  bajos := bienFormado_discoChico.bajos
  altos := bienFormado_discoChico.altos
  cadena i _ hreg := by
    rw [discoConDos_vacios (discoConDos_vivo (by simp [hreg]))]
    have hpara : bloquesPara (Alta.entradaNueva i).fileSize = 0 := by
      change bloquesPara 0 = 0
      decide
    exact ⟨[], .nil, List.nodup_nil, by simp, hpara.le⟩
  directorios i _ hdir := by
    rw [discoConDos_vacios (discoConDos_vivo (by simp [hdir]))]
    rfl
  disjuntas i _ j _ _ hri _ xs _ hx _ b hb := absurd hb (discoConDos_cadena hri hx)
  ocupados b hb := by
    have hlibre := bienFormado_discoChico.ocupados b hb
    constructor
    · intro hbit
      obtain ⟨i, _, hreg, _⟩ := hlibre.mp hbit
      simp [discoChico, discoFormateado, OsadaFile.borrado] at hreg
    · rintro ⟨i, _, hreg, xs, hx, hmem⟩
      exact absurd hmem (discoConDos_cadena hreg hx)

@[irreducible] def pokedexConDos : Pokedex := .inicial discoConDos

theorem pokedexConDos_disco : pokedexConDos.disco = discoConDos := by
  unfold pokedexConDos
  rfl

theorem pokedexConDos_libres : Osada.obtenerBloquesLibres pokedexConDos.disco = 16 := by
  decide +kernel

/-- Both clients ask for all the blocks that are free. -/
def dosClientes (i : Fin 2) : Cliente where
  posicion := i
  descriptor := Alta.entradaNueva i
  cadena := []
  peticion := .truncar 1024

theorem clientes_dosClientes : Clientes pokedexConDos.disco dosClientes where
  enTabla i := lt_trans i.isLt (by decide)
  archivo i := by
    rw [pokedexConDos_disco]
    exact congrArg OsadaFile.state (discoConDos_vacios i.isLt)
  descriptor i := by
    rw [pokedexConDos_disco]
    exact (discoConDos_vacios i.isLt).symm
  cadena i := .nil
  distintos i j h := Fin.ext h
  validas i := ⟨by decide, by decide⟩

theorem bienFormado_pokedexConDos : BienFormado pokedexConDos.disco := by
  rw [pokedexConDos_disco]
  exact bienFormado_discoConDos

theorem dosClientes_llamadas (i : Fin 2) :
    ∃ k k', (dosClientes i).programa = .call .obtenerBloquesLibres k ∧
      k 16 = .call .obtenerTablaAsignaciones k' ∧
        ∀ asignaciones, ∃ k'', k' asignaciones = .call .obtenerPrimerBloqueLibre k'' :=
  truncar_llamadas (show ¬ u32 ((0 : ℕ) + (16 : ℕ) * 64) < u32 1024 by decide) rfl (by decide)

theorem comprueba_pokedexConDos : Orden.obtenerBloquesLibres.ejecutar pokedexConDos =
    (some (16 : ℕ), pokedexConDos) :=
  congrArg (fun n => (some n, pokedexConDos)) pokedexConDos_libres

/-- One client up to its first block. -/
theorem bloques_distintos_chica : ∃ es c,
    Run (fun c e c' => HayLugar c e ∧ hilos.Step c e c') (comienzo pokedexConDos dosClientes) es c ∧
      entregados es = [0] ∧
        ∀ e ∈ es, EnRango pokedexConDos.disco.header.dataBlocks e.command e.answer := by
  obtain ⟨k, k', hprograma, hcheck, htabla⟩ := dosClientes_llamadas 0
  have hpide : (Osada.obtenerPrimerBloqueLibre pokedexConDos).1 = some 0 := by decide +kernel
  obtain ⟨s', hexec⟩ := Op.of_fst hpide
  obtain ⟨c₁, hpaso₁, hmem₁, hprog₁, _⟩ :=
    paso_de_llamada (c := comienzo pokedexConDos dosClientes) (i := 0) hprograma
      comprueba_pokedexConDos
  obtain ⟨c₂, hpaso₂, hmem₂, hprog₂, _⟩ := paso_de_llamada (hprog₁.trans hcheck)
    (ejecutar_obtenerTablaAsignaciones c₁.memory)
  obtain ⟨k'', hpedir⟩ := htabla c₁.memory.disco.asignaciones
  rw [← hmem₁, ← hmem₂] at hexec
  obtain ⟨c₃, hpaso₃, _⟩ := paso_de_llamada (hprog₂.trans hpedir) hexec
  have hlugar : HayLugar (comienzo pokedexConDos dosClientes)
      (⟨0, .obtenerBloquesLibres, (16 : ℕ)⟩ : Evento (Fin 2)) := by
    intro _ _
    change (dosClientes 0).promesa (Osada.obtenerBloquesLibres pokedexConDos.disco) +
      ∑ _ : Fin 2, 0 ≤ libres pokedexConDos.disco
    obtain ⟨cad, hocu, _⟩ := bienFormado_pokedexConDos.ocupacion
    rw [Finset.sum_const_zero, ← hocu.toMapeado.obtenerBloquesLibres_eq, pokedexConDos_libres]
    decide
  have hrun : Run (fun c e c' => HayLugar c e ∧ hilos.Step c e c')
      (comienzo pokedexConDos dosClientes) _ c₃ :=
    .cons ⟨hlugar, hpaso₁⟩ (.cons ⟨hayLugar_of_ne (by simp), hpaso₂⟩
      (.cons ⟨hayLugar_of_ne (by simp), hpaso₃⟩ (.nil _)))
  exact ⟨_, _, hrun, rfl,
    ((bloques_distintos bienFormado_pokedexConDos clientes_dosClientes).2 hrun).2⟩

/-- A client alone takes all the blocks there are. -/
theorem un_cliente_llena : ∃ a s r s', confirmarTruncar
    ⟨some (Alta.entradaNueva 1), .archivoExiste, 1⟩ 1024 pokedexConDos = (some a, s) ∧
      Osada.obtenerPrimerBloqueLibre s = (some r, s') ∧
        pokedexConDos.disco.header.dataBlocks ≤ u32 r := by
  obtain ⟨cad, hocu, _⟩ := bienFormado_pokedexConDos.ocupacion
  have hregular : ∀ i < 2, (pokedexConDos.disco.archivos i).state = .regular := by
    intro i hi
    rw [pokedexConDos_disco, discoConDos_vacios hi]
    rfl
  have hraiz : ∀ i < 2, pokedexConDos.disco.raiz i = uint32Max := by
    intro i hi
    rw [raiz_regular (lt_trans hi (by decide)) (hregular i hi), pokedexConDos_disco,
      discoConDos_vacios hi]
    rfl
  have hvacio : ∀ i < 2, cad i = [] := fun i hi => hocu.raiz_eq.mpr (hraiz i hi)
  have hlibres : libres pokedexConDos.disco = 16 :=
    hocu.toMapeado.obtenerBloquesLibres_eq.symm.trans pokedexConDos_libres
  have hdata : pokedexConDos.disco.header.dataBlocks = 16 := by
    rw [pokedexConDos_disco]
    rfl
  have hpasa : u32 1024 ≤ u32 ((Alta.entradaNueva 1).fileSize +
      Osada.obtenerBloquesLibres pokedexConDos.disco * 64) := by
    rw [pokedexConDos_libres]
    decide
  obtain ⟨a, s, hrun, _, e, _, hedito, _⟩ := returns_confirmarTruncar
    (l := ⟨some (Alta.entradaNueva 1), .archivoExiste, 1⟩) (n := 1024) (s := pokedexConDos)
    rfl rfl (by decide) hocu (hraiz 1 (by decide)) hpasa rfl (.inr ⟨by decide, by decide⟩)
    (by rw [hvacio 1 (by decide), hlibres]; decide) (hvacio 0 (by decide)) (by decide) rfl
  have htodos := hedito.ocupacion.length_add_libres_le 1
  rw [Function.update_self, hedito.header, hdata, hvacio 1 (by decide), List.nil_append,
    List.length_take, length_libresEnOrden, hlibres] at htodos
  have hcero : libres s.disco = 0 := by
    have hpara : bloquesPara (i32 (u32 1024)).toNat = 16 := by decide
    omega
  obtain ⟨r, s', hpide, hr⟩ := obtenerPrimerBloqueLibre_lleno hedito.ocupacion.toMapeado hcero
  exact ⟨a, s, r, s', hrun, hpide, hedito.header ▸ hr⟩

/-- Both checks are made before any block is taken, and the second client finds the disk full. -/
theorem no_toda_busqueda_encuentra : ¬ ∀ (s : Pokedex) (cliente : Fin 2 → Cliente)
    (es : List (Evento (Fin 2))) (c : Estado (Fin 2)), BienFormado s.disco →
    Clientes s.disco cliente → Run hilos.Step (comienzo s cliente) es c →
    ∀ e ∈ es, EnRango s.disco.header.dataBlocks e.command e.answer := by
  intro h
  obtain ⟨k, k', hprograma, hcheck, htabla⟩ := dosClientes_llamadas 0
  obtain ⟨c₁, hpaso₁, hmem₁, hprog₁, hotro₁⟩ :=
    paso_de_llamada (c := comienzo pokedexConDos dosClientes) (i := 0) hprograma
      comprueba_pokedexConDos
  obtain ⟨a, s₁, r, s₂, htodo, hexec, hfuera⟩ := un_cliente_llena
  have hsola : (c₁.thread 1).programa.seguido c₁.memory = (some a, s₁) := by
    rw [hotro₁ 1 (by decide), hmem₁, ← htodo]
    exact congrFun (run_truncar (show 1 < 2048 by decide) (Alta.entradaNueva 1) 1024) pokedexConDos
  obtain ⟨es, c₂, hrun₂, hmem₂, hotro₂⟩ := corrida_sola hsola
  have hprog₂ : (c₂.thread 0).programa = .call .obtenerTablaAsignaciones k' := by
    rw [hotro₂ 0 (by decide)]
    exact hprog₁.trans hcheck
  obtain ⟨c₃, hpaso₃, hmem₃, hprog₃, _⟩ := paso_de_llamada hprog₂
    (ejecutar_obtenerTablaAsignaciones c₂.memory)
  obtain ⟨k'', hpedir⟩ := htabla c₂.memory.disco.asignaciones
  rw [← hmem₂, ← hmem₃] at hexec
  obtain ⟨c₄, hpaso₄, _⟩ := paso_de_llamada (hprog₃.trans hpedir) hexec
  have hrun : Run hilos.Step (comienzo pokedexConDos dosClientes) _ c₄ :=
    .cons hpaso₁ (hrun₂.append (.cons hpaso₃ (.cons hpaso₄ (.nil _))))
  have hmal : 0 ≤ r ∧ r < pokedexConDos.disco.header.dataBlocks :=
    h pokedexConDos dosClientes _ c₄ bienFormado_pokedexConDos clientes_dosClientes hrun
      ⟨0, .obtenerPrimerBloqueLibre, r⟩ (by simp)
  have hdata : pokedexConDos.disco.header.dataBlocks = 16 := by
    rw [pokedexConDos_disco]
    rfl
  have hu : (u32 r : ℤ) = r := u32_of_lt hmal.1 (by omega)
  omega

end TpSo.Osada.Hilado
