import TpSo.Osada.Corridas
import TpSo.Osada.Leer
import TpSo.Osada.Rutas

/-!
# What a write and a truncation leave in a file

The bytes of a file are those of the blocks of its chain, cut at its size. A write that goes
through puts the buffer over the bytes of the chain, made longer by the blocks that are missing
and by no more; what the new blocks held before shows wherever the buffer does not reach.
-/

namespace TpSo.Osada

open Function (update)

/-- A file of a well-formed disk and its chain. -/
structure ArchivoEn (d : Disco) (p : ℕ) (xs : List ℕ) : Prop where
  bienFormado : BienFormado d
  enTabla : p < 2048
  regular : (d.archivos p).state = .regular
  cadena : Chain d.asignaciones uint32Max (d.archivos p).firstBlock xs

theorem ArchivoEn.ocupacion {d : Disco} {p : ℕ} {xs : List ℕ} (h : ArchivoEn d p xs) :
    ∃ cad, Ocupacion d d.raiz cad ∧ Descriptores d cad ∧ cad p = xs := by
  obtain ⟨cad, hocu, hdes⟩ := h.bienFormado.ocupacion
  exact ⟨cad, hocu, hdes, (hocu.cadena h.enTabla h.regular).unique h.cadena⟩

theorem ArchivoEn.raiz {d : Disco} {p : ℕ} {xs : List ℕ} (h : ArchivoEn d p xs) :
    d.raiz p = (d.archivos p).firstBlock := raiz_regular h.enTabla h.regular

/-- The size of the file and the free space, in the numbers of the checks. -/
theorem ArchivoEn.tamanio {s : Pokedex} {p : ℕ} {xs : List ℕ} (h : ArchivoEn s.disco p xs) :
    (s.disco.archivos p).fileSize ≤ 64 * xs.length ∧
      (xs.length + libres s.disco) * 64 < 2147483648 ∧
      obtenerBloquesLibres s.disco = libres s.disco := by
  obtain ⟨cad, hocu, hdes, rfl⟩ := h.ocupacion
  obtain ⟨hsize, hchico⟩ := hdes.tamanio hocu h.enTabla h.regular
  exact ⟨hsize, hchico, hocu.obtenerBloquesLibres_eq⟩

structure ArchivoDeRuta (d : Disco) (basura : OsadaFile) (path : Cadena) (l : Lectura)
    (e : OsadaFile) (xs : List ℕ) : Prop where
  bienFormado : BienFormado d
  lectura : leerPath d basura path = some l
  existe : l.resultado = .archivoExiste
  descriptor : l.descriptor = some e
  regular : e.state = .regular
  cadena : Chain d.asignaciones uint32Max e.firstBlock xs

theorem ArchivoDeRuta.archivoEn {d : Disco} {basura : OsadaFile} {path : Cadena} {l : Lectura}
    {e : OsadaFile} {xs : List ℕ} (h : ArchivoDeRuta d basura path l e xs) :
    e = d.archivos l.posicion ∧ ArchivoEn d l.posicion xs := by
  obtain ⟨e', hd, hpos, _⟩ := leerPath_existe h.lectura h.existe
  obtain rfl : e' = e := Option.some.inj (hd.symm.trans h.descriptor)
  rcases hpos with ⟨_, rfl⟩ | ⟨hlt, rfl, _⟩
  · exact absurd h.regular (by simp [descriptorRaiz])
  · exact ⟨rfl, h.bienFormado, hlt, h.regular, h.cadena⟩

theorem Contenido.contenido_eq {P : ℕ → Prop} {s s' : Pokedex} (h : Contenido P s s')
    {ys : List ℕ} (hys : ∀ b ∈ ys, ¬ P b) : contenido s'.disco ys = contenido s.disco ys := by
  apply contenido_congr h.inicio
  intro b hb k hlo hhi
  apply h.datos
  intro c hc hk
  have hcb : c = b := by omega
  exact hys b hb (hcb ▸ hc)

/-! ## Writes -/

/-- The blocks that writing `n` bytes from `pos` on goes through, the first one of the file at
least. -/
def bloquesDeEdicion (n pos : ℕ) : ℕ := if n = 0 then 1 else bloquesPara (pos + n)

theorem bloquesDeEdicion_eq (n pos : ℕ) : max 1 (rondas n pos) = bloquesDeEdicion n pos := by
  unfold bloquesDeEdicion rondas bloquesPara
  split <;> split <;> omega

theorem bloquesDeEdicion_add (n m pos : ℕ) :
    bloquesDeEdicion (n + m) pos = max (bloquesDeEdicion n pos) (bloquesDeEdicion m (pos + n)) := by
  unfold bloquesDeEdicion bloquesPara
  split <;> split <;> split <;> omega

theorem le_bloquesDeEdicion {n : ℕ} (pos : ℕ) (hn : n ≠ 0) : pos + n ≤ 64 * bloquesDeEdicion n pos := by
  rw [bloquesDeEdicion, if_neg hn]
  unfold bloquesPara
  omega

section Tramos
variable {s s' : Pokedex} {raiz : ℕ → ℕ} {cad : ℕ → List ℕ} {p pos : ℕ} {e e' : OsadaFile}

/-- Calls of `editarArchivoInterna` that go through, one after another, each where the one
before stopped. Between two calls the size in the descriptor may change. -/
inductive Tramos : Pokedex → OsadaFile → ℕ → List (List UInt8) → Pokedex → OsadaFile → Prop where
  | nil (s : Pokedex) (e : OsadaFile) (pos : ℕ) : Tramos s e pos [] s e
  | cons {s s₁ s' : Pokedex} {e e₁ e' : OsadaFile} {pos size : ℕ} {tramo : List UInt8}
      {tramos : List (List UInt8)} :
      editarArchivoInterna e tramo.length pos tramo s = (some ((tramo.length : ℤ), e₁), s₁) →
      Tramos s₁ { e₁ with fileSize := size } (pos + tramo.length) tramos s' e' →
      Tramos s e pos (tramo :: tramos) s' e'

/-- A call whose check lets it through and that finds the blocks it needs. -/
theorem returns_editarArchivoInterna_nat (h : Ocupacion s.disco raiz cad)
    (hraiz : raiz p = e.firstBlock) {edicion : List UInt8}
    (hcheck : u32 edicion.length ≤ u32 (e.fileSize - pos + obtenerBloquesLibres s.disco * 64))
    (hneed : bloquesDeEdicion edicion.length pos ≤ (cad p).length + libres s.disco) :
    Op.Returns (editarArchivoInterna e edicion.length pos edicion) s fun r s' => ∃ nuevos,
      Crecio (update raiz p r.2.firstBlock) cad p nuevos s s' ∧
      nuevos.length = bloquesDeEdicion edicion.length pos - (cad p).length ∧
      r = ((edicion.length : ℤ), { e with firstBlock := r.2.firstBlock }) ∧
      contenido s'.disco (cad p ++ nuevos) =
        overwrite (contenido s.disco (cad p ++ nuevos)) pos edicion := by
  rw [← bloquesDeEdicion_eq] at hneed ⊢
  obtain ⟨⟨n, e₁⟩, s', hrun, hcre, hn, he, hbytes⟩ := returns_editarArchivoInterna
    h hraiz hcheck hneed rfl
    fun _ => enSuLugar_primera h (Int.natCast_nonneg pos) edicion rfl
  simp only at hn he
  refine ⟨_, s', hrun, _, hcre, ?_, ?_, hbytes (Int.natCast_nonneg pos) rfl⟩
  · rw [List.length_take, length_libresEnOrden]
    omega
  · rw [hn, max_eq_left (Int.natCast_nonneg _), ← he]

theorem editarArchivoInterna_pasa {n : ℤ} {edicion : List UInt8} {r : ℤ × OsadaFile}
    (hrun : editarArchivoInterna e n pos edicion s = (some r, s')) (hr : 0 ≤ r.1) :
    u32 n ≤ u32 (e.fileSize - pos + obtenerBloquesLibres s.disco * 64) := by
  by_contra hlt
  rw [editarArchivoInterna, Op.get_bind, if_pos (Nat.lt_of_not_le hlt)] at hrun
  obtain ⟨rfl, _⟩ := Op.some_inj hrun
  change 0 ≤ noHayEspacio at hr
  exact absurd hr (by decide)

/-- Consecutive calls take the blocks, and leave the bytes, of one call. The induction is on the
calls. -/
theorem Tramos.crecio {tramos : List (List UInt8)} (h : Tramos s e pos tramos s' e') :
    ∀ {raiz : ℕ → ℕ} {cad : ℕ → List ℕ}, Ocupacion s.disco raiz cad → raiz p = e.firstBlock →
      bloquesDeEdicion tramos.flatten.length pos ≤ (cad p).length + libres s.disco →
      ∃ nuevos, Crecio (update raiz p e'.firstBlock) cad p nuevos s s' ∧
        nuevos.length = (if tramos = [] then 0 else bloquesDeEdicion tramos.flatten.length pos) -
          (cad p).length ∧
        contenido s'.disco (cad p ++ nuevos) =
          overwrite (contenido s.disco (cad p ++ nuevos)) pos tramos.flatten := by
  induction h with
  | nil s e pos =>
    intro raiz cad hocu hraiz _
    refine ⟨[], ?_, by simp, by simp⟩
    rw [← hraiz, Function.update_eq_self]
    exact Crecio.refl hocu p
  | @cons s s₁ s' e e₁ e' pos size tramo tramos hrun _ ih =>
    intro raiz cad hocu hraiz hneed
    have hsuma := bloquesDeEdicion_add tramo.length tramos.flatten.length pos
    rw [List.flatten_cons, List.length_append] at hneed ⊢
    obtain ⟨nuevos₁, hcre, hlen, hr, hbytes⟩ := (returns_editarArchivoInterna_nat hocu hraiz
      (editarArchivoInterna_pasa hrun (Int.natCast_nonneg _)) (by omega)).post hrun
    have hlib := hcre.libres_eq
    obtain ⟨nuevos₂, hcre', hlen', hbytes'⟩ := ih hcre.ocupacion (by rw [Function.update_self])
      (by rw [Function.update_self, List.length_append]; omega)
    have htodo := hcre.trans hcre'
    rw [Function.update_self] at hlen' hbytes'
    rw [Function.update_idem] at htodo
    refine ⟨nuevos₁ ++ nuevos₂, htodo, ?_, ?_⟩
    · rw [List.length_append, hlen', List.length_append, hlen, if_neg (List.cons_ne_nil _ _)]
      split
      · next hnil =>
        rw [hnil, List.flatten_nil, List.length_nil, Nat.add_zero]
        omega
      · omega
    · -- the second part of the calls finds the free blocks as they were
      have hnodup := (htodo.ocupacion.fat.chain p).nodup
      rw [Function.update_self, ← List.append_assoc] at hnodup
      have hajenos : contenido s₁.disco nuevos₂ = contenido s.disco nuevos₂ :=
        hcre.contenido.contenido_eq fun b hb hmem => List.disjoint_of_nodup_append hnodup hmem hb
      have hpartes : contenido s₁.disco (cad p ++ nuevos₁ ++ nuevos₂) =
          overwrite (contenido s.disco (cad p ++ nuevos₁)) pos tramo ++
            contenido s.disco nuevos₂ := by
        rw [contenido_append, hbytes, hajenos]
      rw [← List.append_assoc, hbytes', hpartes, contenido_append s.disco _ nuevos₂]
      rcases eq_or_ne tramo [] with rfl | hne
      · rw [overwrite_nil, List.nil_append, List.length_nil, Nat.add_zero]
      · have hle := le_bloquesDeEdicion pos (List.length_pos_iff.mpr hne).ne'
        have hcabe : pos + tramo.length ≤ (contenido s.disco (cad p ++ nuevos₁)).length := by
          rw [length_contenido, List.length_append, hlen]
          omega
        rw [← overwrite_append_left hcabe, overwrite_append]
        rw [List.length_append]
        exact Nat.le_add_right_of_le hcabe

end Tramos

/-- What a call of `editarArchivoInterna` for a file with the chain `xs` leaves when it has gone
through: `nuevos` are the blocks it took. -/
structure Reemplaza (s s' : Pokedex) (firstBlock : ℕ) (xs nuevos : List ℕ) (pos : ℕ)
    (edicion : List UInt8) : Prop where
  cadena : Chain s'.disco.asignaciones uint32Max firstBlock (xs ++ nuevos)
  tomados : nuevos.length = bloquesPara (pos + edicion.length) - xs.length
  libres : libres s'.disco + nuevos.length = libres s.disco
  cabe : pos + edicion.length ≤ (contenido s.disco xs ++ contenido s.disco nuevos).length
  bytes : contenido s'.disco (xs ++ nuevos) =
    overwrite (contenido s.disco xs ++ contenido s.disco nuevos) pos edicion

theorem reemplaza_of_crecio {s s' : Pokedex} {raiz : ℕ → ℕ} {cad : ℕ → List ℕ} {p pos r : ℕ}
    {nuevos : List ℕ} {edicion : List UInt8} (h : Crecio (update raiz p r) cad p nuevos s s')
    (hne : edicion ≠ [])
    (hlen : nuevos.length = bloquesDeEdicion edicion.length pos - (cad p).length)
    (hbytes : contenido s'.disco (cad p ++ nuevos) =
      overwrite (contenido s.disco (cad p ++ nuevos)) pos edicion) :
    Reemplaza s s' r (cad p) nuevos pos edicion := by
  have hpos : edicion.length ≠ 0 := (List.length_pos_iff.mpr hne).ne'
  have hle := le_bloquesDeEdicion pos hpos
  refine ⟨?_, ?_, ?_, ?_, ?_⟩
  · have hc := h.ocupacion.fat.chain p
    rwa [Function.update_self, Function.update_self] at hc
  · rw [hlen, bloquesDeEdicion, if_neg hpos]
  · rw [Nat.add_comm]
    exact h.libres_eq
  · rw [← contenido_append, length_contenido, List.length_append, hlen]
    omega
  · rw [hbytes, contenido_append]

/-- A write puts the buffer over the bytes of the chain, and takes the blocks that are missing; in
pieces it does the same. -/
theorem editarArchivoInterna_reemplaza {s : Pokedex} {p : ℕ} {xs : List ℕ}
    (h : ArchivoEn s.disco p xs) (pos : ℕ) {edicion : List UInt8} (hne : edicion ≠ [])
    (hcabe : bloquesPara (pos + edicion.length) - xs.length ≤ libres s.disco)
    (hcheck : u32 edicion.length ≤
      u32 ((s.disco.archivos p).fileSize - pos + obtenerBloquesLibres s.disco * 64)) :
    Op.Returns (editarArchivoInterna (s.disco.archivos p) edicion.length pos edicion) s
      fun r s' => r.1 = edicion.length ∧
        ∃ nuevos, Reemplaza s s' r.2.firstBlock xs nuevos pos edicion ∧
          ∀ tramos : List (List UInt8), tramos.flatten = edicion → ∀ s'' e'',
            Tramos s (s.disco.archivos p) pos tramos s'' e'' →
            Chain s''.disco.asignaciones uint32Max e''.firstBlock (xs ++ nuevos) ∧
              contenido s''.disco (xs ++ nuevos) = contenido s'.disco (xs ++ nuevos) := by
  obtain ⟨cad, hocu, _, rfl⟩ := h.ocupacion
  have hpos : edicion.length ≠ 0 := (List.length_pos_iff.mpr hne).ne'
  have hneed : bloquesDeEdicion edicion.length pos ≤ (cad p).length + libres s.disco := by
    rw [bloquesDeEdicion, if_neg hpos]
    omega
  obtain ⟨r, s', hrun, nuevos, hcre, hlen, hr, hbytes⟩ :=
    returns_editarArchivoInterna_nat hocu h.raiz hcheck hneed
  refine ⟨r, s', hrun, by rw [hr], nuevos, reemplaza_of_crecio hcre hne hlen hbytes, ?_⟩
  rintro tramos rfl s'' e'' htramos
  have hno : tramos ≠ [] := by
    rintro rfl
    exact hne rfl
  obtain ⟨nuevos', hcre', hlen', hbytes'⟩ := htramos.crecio hocu h.raiz hneed
  rw [if_neg hno, ← hlen] at hlen'
  have hmismos : nuevos' = nuevos := by
    rw [hcre'.nuevos_eq, hlen', ← hcre.nuevos_eq]
  subst hmismos
  exact ⟨(reemplaza_of_crecio hcre' hne (hlen'.trans hlen) hbytes').cadena, hbytes'.trans hbytes.symm⟩

theorem archivoEn_conA {k size : ℕ} (hk : k ≤ 16) (hsize : bloquesPara size ≤ k) :
    ArchivoEn (discoConA k size) 0 (List.range k) where
  bienFormado := bienFormado_conArchivo (by decide) (by decide) (by decide) hk hsize
  enTabla := by decide
  regular := rfl
  cadena := cadena_conArchivo (lt_of_le_of_lt hk (by decide))

theorem archivoDeRuta_conA {k size : ℕ} (hk : k ≤ 16) (hsize : bloquesPara size ≤ k)
    (basura : OsadaFile) : ArchivoDeRuta (discoConA k size) basura rutaA
      ⟨some ((discoConA k size).archivos 0), .archivoExiste, 0⟩ ((discoConA k size).archivos 0)
      (List.range k) where
  bienFormado := (archivoEn_conA hk hsize).bienFormado
  lectura := leerPath_conA k size basura
  existe := rfl
  descriptor := rfl
  regular := rfl
  cadena := (archivoEn_conA hk hsize).cadena

theorem editarArchivoInterna_reemplaza_a :
    Op.Returns (editarArchivoInterna ((discoConA 1 10).archivos 0) (6 : ℕ) (60 : ℕ)
      [1, 2, 3, 4, 5, 6]) (.inicial (discoConA 1 10)) fun r _ => r.1 = 6 := by
  have ha : ArchivoEn (Pokedex.inicial (discoConA 1 10)).disco 0 (List.range 1) :=
    archivoEn_conA (by decide) (by decide)
  have hlibres : libres (Pokedex.inicial (discoConA 1 10)).disco = 15 := libres_conArchivo
  have hcuenta := ha.tamanio.2.2
  rw [hlibres] at hcuenta
  have hcabe : bloquesPara (60 + 6) - (List.range 1).length ≤ 15 := by decide
  have hcheck : u32 (6 : ℕ) ≤ u32 ((10 : ℕ) - (60 : ℕ) + (15 : ℕ) * 64) := by decide
  have hret := editarArchivoInterna_reemplaza ha 60 (List.cons_ne_nil 1 [2, 3, 4, 5, 6])
    (hlibres ▸ hcabe) (hcuenta ▸ hcheck)
  exact hret.mono fun _ _ h => h.1

/-! ## The size and the bytes of the file -/

/-- The bytes that an entry stands for. -/
def TieneBytes (d : Disco) (e : OsadaFile) (bytes : List UInt8) : Prop :=
  ∃ xs, Chain d.asignaciones uint32Max e.firstBlock xs ∧ e.fileSize ≤ 64 * xs.length ∧
    (contenido d xs).take e.fileSize = bytes

theorem TieneBytes.length {d : Disco} {e : OsadaFile} {bytes : List UInt8}
    (h : TieneBytes d e bytes) : bytes.length = e.fileSize := by
  obtain ⟨xs, _, hle, rfl⟩ := h
  rw [List.length_take, length_contenido, min_eq_left hle]

theorem tieneBytes_iff {d : Disco} {e : OsadaFile} {bytes : List UInt8} {xs : List ℕ}
    (hc : Chain d.asignaciones uint32Max e.firstBlock xs) (hle : e.fileSize ≤ 64 * xs.length) :
    TieneBytes d e bytes ↔ (contenido d xs).take e.fileSize = bytes := by
  constructor
  · rintro ⟨ys, hy, _, hbytes⟩
    rwa [hy.unique hc] at hbytes
  · exact fun hbytes => ⟨xs, hc, hle, hbytes⟩

/-- A read brings the bytes of the file where the chain goes on after them, and only there. -/
theorem lectura_iff {d : Disco} {e : OsadaFile} {xs : List ℕ} {n pos : ℕ} (h : CadenaDe d e xs)
    (hchico : ∀ b ∈ xs, (d.inicio + b) * 64 < 4294967296) (hn : n < 2147483648)
    (hpos : pos < 2147483648) :
    (∃ r accesos, obtenerArchivoInterna d e n pos ⟨[], []⟩ = (some r, accesos) ∧
        r.1 = rango d e.fileSize xs n pos) ↔
      xs ≠ [] ∧ Alcanza xs.length (largoRango e.fileSize n pos) pos := by
  constructor
  · rintro ⟨r, accesos, hrun, _⟩
    by_contra hno
    have hcae := h.cae hn hpos (or_iff_not_imp_left.mpr fun hne halc => hno ⟨hne, halc⟩)
    rw [hrun] at hcae
    exact absurd hcae (by simp)
  · rintro ⟨hne, halc⟩
    obtain ⟨archivo, indices, hlee, _, harch⟩ := h.lee hn hpos hne halc
    refine ⟨_, _, hlee, harch fun b hb => posicionDeBloque_iff.mpr (hchico b ?_)⟩
    unfold bloquesDelRango at hb
    split at hb
    · exact absurd hb List.not_mem_nil
    · exact List.mem_of_mem_take (List.mem_of_mem_drop hb)

/-- The bytes of a file once `datos` are in it from `pos` on. -/
def escrito (bytes : List UInt8) (pos : ℕ) (datos : List UInt8) : List UInt8 :=
  overwrite (bytes ++ List.replicate (pos - bytes.length) 0) pos datos

/-- A write has done its work on entry `p`, whose bytes were `bytes`. -/
structure EscribeBien (s' : Pokedex) (p : ℕ) (bytes : List UInt8) (pos : ℕ)
    (datos : List UInt8) : Prop where
  fileSize : (s'.disco.archivos p).fileSize = max bytes.length (pos + datos.length)
  bytes : TieneBytes s'.disco (s'.disco.archivos p) (escrito bytes pos datos)

/-- A read of the range where `datos` are brings them. -/
def LeeLoEscrito (s' : Pokedex) (p pos : ℕ) (datos : List UInt8) : Prop :=
  ∃ r accesos, obtenerArchivoInterna s'.disco (s'.disco.archivos p) datos.length pos ⟨[], []⟩ =
    (some r, accesos) ∧ r.1 = datos

section Editar
variable {s s' : Pokedex} {basura : OsadaFile} {path : Cadena} {l : Lectura} {e : OsadaFile}
  {xs : List ℕ} {pos : ℕ} {datos : List UInt8}

/-- What the check of the free space looks at. -/
def PasaEdicion (d : Disco) (e : OsadaFile) (n pos : ℤ) : Prop :=
  u32 n ≤ u32 (e.fileSize - pos + obtenerBloquesLibres d * 64)

/-- The check lets through what starts past the end of the file and of the free space. -/
theorem pasaEdicion_iff (h : ArchivoEn s.disco l.posicion xs) (hpos : pos < 2147483648)
    {n : ℕ} (hn : n < 2147483648) : PasaEdicion s.disco (s.disco.archivos l.posicion) n pos ↔
      pos + n ≤ (s.disco.archivos l.posicion).fileSize + libres s.disco * 64 ∨
        (s.disco.archivos l.posicion).fileSize + libres s.disco * 64 < pos := by
  obtain ⟨hsize, hchico, hlibres⟩ := h.tamanio
  unfold PasaEdicion u32
  rw [hlibres]
  omega

/-- A write that the check turns down, or that does not find its blocks. The search for one goes on
over the `relleno` bits that the bitmap has past those of the blocks. -/
def NoEntra (size largo libres relleno n pos : ℕ) : Prop :=
  pos ≤ size + libres * 64 ∧ size + libres * 64 < pos + n ∨
    (largo + libres + relleno) * 64 < pos + n

theorem noEntra_iff (h : ArchivoEn s.disco l.posicion xs) (hpos : pos < 2147483648)
    {n : ℕ} (hn : n < 2147483648) (relleno : ℕ) :
    NoEntra (s.disco.archivos l.posicion).fileSize xs.length (libres s.disco) relleno n pos ↔
      ¬ PasaEdicion s.disco (s.disco.archivos l.posicion) n pos ∨
        (xs.length + libres s.disco + relleno) * 64 < pos + n := by
  rw [pasaEdicion_iff h hpos hn, NoEntra]
  omega

/-- A write that the check lets through and that finds its blocks. -/
theorem osadaEditarArchivo_apply (h : ArchivoDeRuta s.disco basura path l e xs)
    (hne : datos ≠ []) (hpasa : PasaEdicion s.disco e datos.length pos)
    (hcabe : pos + datos.length ≤ (xs.length + libres s.disco) * 64) :
    ∃ s' e' nuevos, osadaEditarArchivo basura path pos datos.length datos s =
        (some (datos.length : ℤ), s') ∧
      s'.disco.archivos = update s.disco.archivos l.posicion e' ∧
      e' = { e with
        firstBlock := e'.firstBlock, fileSize := tamanioEditado e.fileSize pos datos.length } ∧
      Reemplaza s s' e'.firstBlock xs nuevos pos datos ∧
      (∀ b ∈ xs ++ nuevos, b < s'.disco.header.dataBlocks) ∧
      Medido s'.disco := by
  obtain ⟨rfl, ha⟩ := h.archivoEn
  obtain ⟨cad, hocu, _, rfl⟩ := ha.ocupacion
  have hno : datos.length ≠ 0 := (List.length_pos_iff.mpr hne).ne'
  have hneed : bloquesDeEdicion datos.length pos ≤ (cad l.posicion).length + libres s.disco := by
    rw [bloquesDeEdicion, if_neg hno]
    unfold bloquesPara
    omega
  obtain ⟨⟨n, e₁⟩, s₁, hrun, nuevos, hcre, hlen, hr, hbytes⟩ :=
    returns_editarArchivoInterna_nat hocu ha.raiz hpasa hneed
  have hree := reemplaza_of_crecio hcre hne hlen hbytes
  obtain ⟨rfl, he⟩ := Prod.mk.inj hr
  simp only at he
  have hneg : ¬ ((datos.length : ℤ) = noHayEspacio) := by
    unfold noHayEspacio
    omega
  have hrango := hcre.ocupacion.enRango l.posicion
  rw [Function.update_self] at hrango
  refine ⟨s₁.escribir (.descriptor l.posicion
      { e₁ with fileSize := tamanioEditado e₁.fileSize pos datos.length }),
    { e₁ with fileSize := tamanioEditado e₁.fileSize pos datos.length }, nuevos, ?_, ?_, ?_,
    ⟨hree.cadena, hree.tomados, hree.libres, hree.cabe, hree.bytes⟩, hrango,
    hcre.ocupacion.toMedido.congr rfl rfl⟩
  · rw [osadaEditarArchivo, leer_bind_some h.lectura]
    rw [confirmarEditar_entrada _ _ _ h.existe h.descriptor ha.enTabla, Op.bind_some hrun]
    exact congrFun (if_neg hneg) s₁
  · rw [Pokedex.escribir_disco, aplicar_descriptor_archivos _ ha.enTabla, hcre.contenido.archivos]
  · rw [he]

/-- A write that the check lets through and that asks for more blocks than there are. -/
theorem falta_osadaEditarArchivo (h : ArchivoDeRuta s.disco basura path l e xs)
    (hne : datos ≠ []) (hpos : pos < 2147483648) (hn : datos.length < 2147483648)
    (hpasa : PasaEdicion s.disco e datos.length pos)
    (hfalta : (xs.length + libres s.disco) * 64 < pos + datos.length) :
    Falta (editarArchivoInterna e datos.length pos datos) s
      (pos + datos.length ≤ (xs.length + libres s.disco + relleno s.disco.header) * 64)
      fun r => r.1 = datos.length ∧ r.2 = { e with firstBlock := r.2.firstBlock } := by
  obtain ⟨rfl, ha⟩ := h.archivoEn
  obtain ⟨cad, hocu, _, rfl⟩ := ha.ocupacion
  have hno : datos.length ≠ 0 := (List.length_pos_iff.mpr hne).ne'
  have hrondas : max 1 (rondas datos.length pos) = bloquesPara (pos + datos.length) := by
    rw [bloquesDeEdicion_eq, bloquesDeEdicion, if_neg hno]
  obtain ⟨hsale, hvuelve, hcae⟩ : Falta (editarArchivoInterna _ datos.length pos datos) s _ _ :=
    falta_editarArchivoInterna hocu ha.raiz hpasa
      (by rw [hrondas]; unfold bloquesPara; omega) (hocu.rondas_lt (by omega))
  rw [max_eq_left (Int.natCast_nonneg _)] at hvuelve
  rw [hrondas] at hvuelve hcae
  unfold bloquesPara at hvuelve hcae
  exact ⟨hsale, fun hay => hvuelve (by omega), fun hno => hcae (by omega)⟩

theorem osadaEditarArchivo_no (h : ArchivoDeRuta s.disco basura path l e xs) (hne : datos ≠ [])
    (hpos : pos < 2147483648) (hn : datos.length < 2147483648)
    (hno : ¬ PasaEdicion s.disco e datos.length pos ∨
      (xs.length + libres s.disco + relleno s.disco.header) * 64 < pos + datos.length) :
    osadaEditarArchivo basura path pos datos.length datos s ≠ (some (datos.length : ℤ), s') := by
  have hp := h.archivoEn.2.enTabla
  rw [osadaEditarArchivo, leer_bind_some h.lectura]
  by_cases hpasa : PasaEdicion s.disco e datos.length pos
  · have hlen := hno.resolve_left (not_not.mpr hpasa)
    have hcae := (falta_osadaEditarArchivo h hne hpos hn hpasa (by omega)).cae (by omega)
    rw [confirmarEditar_entrada _ _ _ h.existe h.descriptor hp]
    intro hrun
    have hnone := Op.bind_fst_none (f := fun r : ℤ × OsadaFile =>
      if r.1 = noHayEspacio then (pure r.1 : Op Pokedex ℤ) else do
        let _ ← reemplazarEstructuraDeArchivo l.posicion
          { r.2 with fileSize := tamanioEditado r.2.fileSize pos datos.length }
        pure r.1) hcae
    rw [hrun] at hnone
    exact absurd hnone (by simp)
  · rw [confirmarEditar_rechazado h.existe h.descriptor hp (Nat.lt_of_not_le hpasa)]
    intro hrun
    have hres : noHayEspacio = (datos.length : ℤ) := Option.some.inj (Prod.mk.inj hrun).1
    unfold noHayEspacio at hres
    omega

/-- Such a write comes back when the bits past those of the blocks are enough, with all its bytes
counted and the size as the comparison leaves it. -/
theorem osadaEditarArchivo_relleno (h : ArchivoDeRuta s.disco basura path l e xs)
    (hne : datos ≠ []) (hpos : pos < 2147483648) (hn : datos.length < 2147483648)
    (hpasa : PasaEdicion s.disco e datos.length pos)
    (hfalta : (xs.length + libres s.disco) * 64 < pos + datos.length)
    (hcabe : pos + datos.length ≤
      (xs.length + libres s.disco + relleno s.disco.header) * 64) :
    ∃ s', osadaEditarArchivo basura path pos datos.length datos s =
        (some (datos.length : ℤ), s') ∧
      (s'.disco.archivos l.posicion).fileSize = tamanioEditado e.fileSize pos datos.length := by
  have hp := h.archivoEn.2.enTabla
  obtain ⟨⟨r, e'⟩, s₁, hrun, hr, he⟩ :=
    (falta_osadaEditarArchivo h hne hpos hn hpasa hfalta).vuelve hcabe
  simp only at hr he
  have hneg : ¬ (r = noHayEspacio) := by
    unfold noHayEspacio
    omega
  refine ⟨s₁.escribir (.descriptor l.posicion
    { e' with fileSize := tamanioEditado e'.fileSize pos datos.length }), ?_, ?_⟩
  · rw [osadaEditarArchivo, leer_bind_some h.lectura,
      confirmarEditar_entrada _ _ _ h.existe h.descriptor hp, Op.bind_some hrun, ← hr]
    exact congrFun (if_neg hneg) s₁
  · rw [Pokedex.escribir_disco, aplicar_descriptor_archivos _ hp, Function.update_self, he]

/-- The size of a file after a write: the writes past its end do not count. -/
theorem tamanioEditado_eq {size n : ℕ} (hsize : size < 2147483648) (hpos : pos < 2147483648)
    (hn : n < 2147483648) :
    tamanioEditado size pos n = if pos ≤ size then max size (pos + n) else size := by
  unfold tamanioEditado u32
  split <;> split <;> omega

/-- Where a write that goes through starts within the file, it leaves what it should. -/
theorem Reemplaza.escribeBien {nuevos : List ℕ}
    (h : Reemplaza s s' (s'.disco.archivos l.posicion).firstBlock xs nuevos pos datos)
    (hsize : e.fileSize ≤ 64 * xs.length) (hpos : pos ≤ e.fileSize)
    (he : (s'.disco.archivos l.posicion).fileSize = max e.fileSize (pos + datos.length)) :
    EscribeBien s' l.posicion ((contenido s.disco xs).take e.fileSize) pos datos := by
  have hlen : ((contenido s.disco xs).take e.fileSize).length = e.fileSize := by
    rw [List.length_take, length_contenido, min_eq_left hsize]
  have hcabe := h.cabe
  rw [List.length_append, length_contenido, length_contenido] at hcabe
  refine ⟨by rw [he, hlen], xs ++ nuevos, h.cadena, ?_, ?_⟩
  · rw [he, List.length_append]
    omega
  · rw [he, h.bytes, take_overwrite_max h.cabe hpos, escrito, hlen, Nat.sub_eq_zero_of_le hpos,
      List.replicate_zero, List.append_nil, List.take_append_of_le_length]
    rw [length_contenido]
    exact hsize

/-- What such a write leaves can be read where the file had blocks to spare. -/
theorem leeLoEscrito_iff {nuevos : List ℕ}
    (h : Reemplaza s s' (s'.disco.archivos l.posicion).firstBlock xs nuevos pos datos)
    (hne : datos ≠ []) (hd : Medido s'.disco)
    (hrango : ∀ b ∈ xs ++ nuevos, b < s'.disco.header.dataBlocks)
    (hsize : e.fileSize ≤ 64 * xs.length) (hpos : pos ≤ e.fileSize)
    (hmax : (xs.length + libres s.disco) * 64 < 2147483648)
    (he : (s'.disco.archivos l.posicion).fileSize = max e.fileSize (pos + datos.length)) :
    LeeLoEscrito s' l.posicion pos datos ↔ bloquesPara (pos + datos.length) < xs.length := by
  have hlen : 0 < datos.length := List.length_pos_iff.mpr hne
  have hcabe := h.cabe
  have hlibres := h.libres
  have htomados := h.tomados
  rw [List.length_append, length_contenido, length_contenido] at hcabe
  have hcad : CadenaDe s'.disco (s'.disco.archivos l.posicion) (xs ++ nuevos) := by
    refine ⟨h.cadena, hrango, ?_, hd.dataBlocks_lt.le, ?_⟩
    · rw [he, List.length_append]
      unfold bloquesPara
      omega
    · rw [he]
      unfold uint32Max
      omega
  have hlargo : largoRango (s'.disco.archivos l.posicion).fileSize datos.length pos =
      datos.length := by
    rw [he]
    unfold largoRango
    omega
  have hleido : rango s'.disco (s'.disco.archivos l.posicion).fileSize (xs ++ nuevos) datos.length
      pos = datos := by
    have hdentro : pos ≤ (contenido s.disco xs ++ contenido s.disco nuevos).length :=
      (Nat.le_add_right _ _).trans h.cabe
    rw [rango_eq, hlargo, h.bytes, take_drop_overwrite hdentro]
  have hchico : ∀ b ∈ xs ++ nuevos, (s'.disco.inicio + b) * 64 < 4294967296 := by
    intro b hb
    have hlt := hrango b hb
    have hsuma := hd.suma
    have hfs := hd.chico
    omega
  have hn : datos.length < 2147483648 := by omega
  have hp : pos < 2147483648 := by omega
  have hiff := lectura_iff hcad hchico hn hp
  rw [hleido, hlargo] at hiff
  rw [LeeLoEscrito, hiff, Alcanza, List.length_append, htomados]
  unfold bloquesPara
  constructor
  · rintro ⟨_, halc⟩
    omega
  · intro hlt
    refine ⟨List.append_ne_nil_of_left_ne_nil ?_ _, by omega⟩
    rintro rfl
    exact Nat.not_lt_zero _ hlt

end Editar

theorem contenido_take (d : Disco) (xs : List ℕ) (k : ℕ) :
    contenido d (xs.take k) = (contenido d xs).take (64 * k) := by
  induction xs generalizing k with
  | nil => simp [contenido]
  | cons b xs ih =>
    cases k with
    | zero => simp [contenido]
    | succ k =>
      have hlen : 64 * (k + 1) = (bytesEn d ((d.inicio + b) * 64)).length + 64 * k := by
        rw [length_bytesEn]
        omega
      rw [List.take_succ_cons, contenido_cons, contenido_cons, ih, hlen,
        List.take_length_add_append]

/-- The first bytes of a file do not depend on how long its chain is made. -/
theorem take_contenido {d : Disco} {xs ys : List ℕ} {k m : ℕ} (hxs : m ≤ 64 * xs.length)
    (hk : m ≤ 64 * k) :
    (contenido d ((xs ++ ys).take k)).take m = (contenido d xs).take m := by
  rw [contenido_take, List.take_take, min_eq_left hk, contenido_append,
    List.take_append_of_le_length]
  rw [length_contenido]
  exact hxs

/-- A truncation to `n` of entry `p`, whose bytes were `bytes`, has come back with `r`. -/
structure TruncaBien (s s' : Pokedex) (p : ℕ) (bytes : List UInt8) (n : ℕ) (r : ℤ) : Prop where
  hecho : r = 1 → (s'.disco.archivos p).fileSize = n ∧ TieneBytes s'.disco (s'.disco.archivos p)
    (bytes.take n ++ List.replicate (n - bytes.length) 0)
  rechazado : r = noHayEspacio → s' = s

section Truncar
variable {s s' : Pokedex} {basura : OsadaFile} {path : Cadena} {l : Lectura} {e : OsadaFile}
  {xs : List ℕ} {n : ℕ}

theorem osadaTruncarArchivo_rechazado (h : ArchivoDeRuta s.disco basura path l e xs)
    (hn : n < 2147483648) (hno : e.fileSize + libres s.disco * 64 < n) :
    osadaTruncarArchivo basura path n s = (some noHayEspacio, s) := by
  obtain ⟨rfl, ha⟩ := h.archivoEn
  obtain ⟨hsize, hmax, hlibres⟩ := ha.tamanio
  rw [osadaTruncarArchivo, leer_bind_some h.lectura]
  refine confirmarTruncar_rechazado h.existe h.descriptor ha.enTabla ?_
  rw [hlibres]
  unfold u32
  omega

/-- A truncation that the check lets through finds its blocks. -/
theorem osadaTruncarArchivo_apply (h : ArchivoDeRuta s.disco basura path l e xs)
    (hn : n < 2147483648) (hsi : n ≤ e.fileSize + libres s.disco * 64) :
    ∃ s', osadaTruncarArchivo basura path n s = (some 1, s') ∧
      (s'.disco.archivos l.posicion).fileSize = n ∧
      Chain s'.disco.asignaciones uint32Max (s'.disco.archivos l.posicion).firstBlock
        ((xs ++ libresEnOrden s.disco).take (bloquesPara n)) ∧
      contenido s'.disco ((xs ++ libresEnOrden s.disco).take (bloquesPara n)) =
        truncado e.fileSize n (xs.length + libres s.disco - bloquesPara n)
          (contenido s.disco ((xs ++ libresEnOrden s.disco).take (bloquesPara n))) := by
  obtain ⟨rfl, ha⟩ := h.archivoEn
  obtain ⟨hsize, hmax, hlibres⟩ := ha.tamanio
  obtain ⟨cad, hocu, _, rfl⟩ := ha.ocupacion
  have hu : u32 n = n := u32_natCast_of_lt (by omega)
  have hi : i32 (u32 n) = (n : ℤ) := by
    rw [hu]
    exact i32_natCast_of_lt hn
  have hcheck : u32 n ≤ u32 ((s.disco.archivos l.posicion).fileSize +
      obtenerBloquesLibres s.disco * 64) := by
    rw [hlibres]
    unfold u32
    omega
  have hneed : bloquesDeTruncado n ≤ (cad l.posicion).length + libres s.disco := by
    unfold bloquesDeTruncado bloquesPara
    split <;> omega
  have hafuera : cad 2048 = [] := hocu.cad_eq_nil fun hr => absurd hr.1 (by decide)
  have hdistinto : 2048 ≠ l.posicion := ha.enTabla.ne'
  obtain ⟨_, s', hrun, rfl, e', he', hedito, _, hbytes⟩ := returns_confirmarTruncar h.existe
    h.descriptor ha.enTabla hocu ha.raiz hcheck hi (.inr ⟨Int.natCast_nonneg n, by omega⟩) hneed hafuera
    hdistinto rfl
  rw [Int.toNat_natCast] at hedito hbytes
  rw [hu] at hbytes he'
  have hentrada : s'.disco.archivos l.posicion = e' := by
    rw [hedito.archivos ha.enTabla, Function.update_self]
  have hcadena := hedito.ocupacion.fat.chain l.posicion
  rw [Function.update_self, Function.update_self] at hcadena
  refine ⟨s', ?_, ?_, hentrada ▸ hcadena, hbytes⟩
  · rw [osadaTruncarArchivo, leer_bind_some h.lectura]
    exact hrun
  · rw [hentrada, he']

theorem take_truncado_iff {bytes : List UInt8} {size libres : ℕ} (hn : n ≤ bytes.length) :
    (truncado size n libres bytes).take n =
        bytes.take (min size n) ++ List.replicate (n - size) 0 ↔
      n ≤ size ∨ n ≤ size + libres * 64 ∨
        (bytes.take n).drop size = List.replicate (n - size) 0 := by
  unfold truncado
  rcases Nat.lt_or_ge size n with hlt | hge
  · rw [min_eq_left hlt.le]
    by_cases hentra : n ≤ size + libres * 64
    · refine iff_of_true ?_ (.inr (.inl hentra))
      have hlargo : size + (List.replicate (n - size) (0 : UInt8)).length = n := by
        rw [List.length_replicate]
        omega
      have htake := take_overwrite_max (hlargo.le.trans hn) (le_refl size)
      rw [hlargo, max_eq_right hlt.le] at htake
      have hresto : (bytes.take size).drop n = [] :=
        List.drop_eq_nil_of_le ((List.length_take_le size bytes).trans hlt.le)
      rw [if_pos ⟨hlt, hentra⟩, htake, overwrite, List.take_take, Nat.min_self, hlargo, hresto,
        List.append_nil]
    · have hpartes : bytes.take n = bytes.take size ++ (bytes.take n).drop size := by
        conv_lhs => rw [← List.take_append_drop size (bytes.take n)]
        rw [List.take_take, min_eq_left hlt.le]
      rw [if_neg fun hc => hentra hc.2]
      constructor
      · intro heq
        rw [hpartes] at heq
        exact .inr (.inr (List.append_cancel_left heq))
      · rintro (hc | hc | hc)
        · omega
        · exact absurd hc hentra
        · rw [← hc]
          exact hpartes
  · refine iff_of_true ?_ (.inl hge)
    rw [if_neg fun hc => by omega, min_eq_right hge, Nat.sub_eq_zero_of_le hge, List.replicate_zero,
      List.append_nil]

end Truncar

/-- A truncation does its work exactly when it does not have to set bytes to zero, or has enough
free blocks left for the check of that write, or finds zeros in the blocks it takes. -/
theorem osadaTruncarArchivo_truncaBien_iff {s : Pokedex} {basura : OsadaFile} {path : Cadena}
    {l : Lectura} {e : OsadaFile} {xs : List ℕ} (h : ArchivoDeRuta s.disco basura path l e xs)
    {n : ℕ} (hn : n < 2147483648) :
    (∀ r s', osadaTruncarArchivo basura path n s = (some r, s') →
        TruncaBien s s' l.posicion ((contenido s.disco xs).take e.fileSize) n r) ↔
      n ≤ e.fileSize ∨ e.fileSize + libres s.disco * 64 < n ∨
        n ≤ e.fileSize + (xs.length + libres s.disco - bloquesPara n) * 64 ∨
        ((contenido s.disco ((xs ++ libresEnOrden s.disco).take (bloquesPara n))).take n).drop
          e.fileSize = List.replicate (n - e.fileSize) 0 := by
  obtain ⟨hde, ha⟩ := h.archivoEn
  obtain ⟨hsize, hmax, _⟩ := ha.tamanio
  rw [← hde] at hsize
  rcases Nat.lt_or_ge (e.fileSize + libres s.disco * 64) n with hno | hsi
  · refine iff_of_true ?_ (.inr (.inl hno))
    intro r s' hrun
    obtain ⟨rfl, rfl⟩ := Op.some_inj ((osadaTruncarArchivo_rechazado h hn hno).symm.trans hrun)
    exact ⟨fun hc => absurd hc (by decide), fun _ => rfl⟩
  · obtain ⟨s', hrun, hfs, hcadena, hbytes⟩ := osadaTruncarArchivo_apply h hn hsi
    have hcabe : bloquesPara n ≤ xs.length + libres s.disco := by
      unfold bloquesPara
      omega
    have hn64 : n ≤ 64 * bloquesPara n := by
      unfold bloquesPara
      omega
    have hlargo : ((xs ++ libresEnOrden s.disco).take (bloquesPara n)).length = bloquesPara n := by
      rw [List.length_take, List.length_append, length_libresEnOrden]
      exact min_eq_left hcabe
    have hmin : min e.fileSize n ≤ 64 * xs.length := (Nat.min_le_left _ _).trans hsize
    have hmin' : min e.fileSize n ≤ 64 * bloquesPara n := (Nat.min_le_right _ _).trans hn64
    have hiff : TieneBytes s'.disco (s'.disco.archivos l.posicion)
        (((contenido s.disco xs).take e.fileSize).take n ++
          List.replicate (n - ((contenido s.disco xs).take e.fileSize).length) 0) ↔
        n ≤ e.fileSize ∨
          n ≤ e.fileSize + (xs.length + libres s.disco - bloquesPara n) * 64 ∨
          ((contenido s.disco ((xs ++ libresEnOrden s.disco).take (bloquesPara n))).take n).drop
            e.fileSize = List.replicate (n - e.fileSize) 0 := by
      rw [tieneBytes_iff hcadena (by rw [hfs, hlargo]; exact hn64), hfs, hbytes, List.take_take,
        List.length_take, length_contenido, min_eq_left hsize, min_comm n,
        ← take_contenido hmin hmin']
      exact take_truncado_iff (by rw [length_contenido, hlargo]; exact hn64)
    constructor
    · exact fun hall => (hiff.mp ((hall 1 s' hrun).hecho rfl).2).imp_right .inr
    · intro hc r s'' hrun'
      obtain ⟨rfl, rfl⟩ := Op.some_inj (hrun.symm.trans hrun')
      exact ⟨fun _ => ⟨hfs, hiff.mpr (hc.imp_right fun hc => hc.resolve_left (by omega))⟩,
        fun hr => absurd hr (by decide)⟩

/-- A file of ten bytes is made longer. -/
theorem osadaTruncarArchivo_truncaBien_a :
    Op.Returns (osadaTruncarArchivo .borrado rutaA (100 : ℕ)) (.inicial (discoConA 1 10))
      fun r s' => TruncaBien (.inicial (discoConA 1 10)) s' 0
        ((contenido (discoConA 1 10) (List.range 1)).take 10) 100 r := by
  have ha : ArchivoDeRuta (Pokedex.inicial (discoConA 1 10)).disco .borrado rutaA _ _
      (List.range 1) := archivoDeRuta_conA (by decide) (by decide) .borrado
  have hlibres : libres (Pokedex.inicial (discoConA 1 10)).disco = 15 := libres_conArchivo
  have hn : 100 < 2147483648 := by decide
  have hentra : 100 ≤ 10 + (1 + libres (Pokedex.inicial (discoConA 1 10)).disco -
      bloquesPara 100) * 64 := by
    rw [hlibres]
    decide
  obtain ⟨s', hrun, _⟩ := osadaTruncarArchivo_apply ha hn (by rw [hlibres]; decide)
  have hbien := (osadaTruncarArchivo_truncaBien_iff ha hn).mpr (.inr (.inr (.inl hentra)))
  exact ⟨1, s', hrun, hbien 1 s' hrun⟩

theorem contenido_conA (k size : ℕ) (xs : List ℕ) :
    ∀ b ∈ contenido (discoConA k size) xs, b = 65 := by
  intro b hb
  obtain ⟨x, _, hmem⟩ := List.mem_flatMap.mp hb
  obtain ⟨j, _, rfl⟩ := List.mem_map.mp hmem
  rfl

/-- A file that takes the last free block: its new bytes are those the block held. -/
theorem truncarArchivo_sin_ceros : ¬ ∀ (s : Pokedex) (basura : OsadaFile) (path : Cadena)
    (l : Lectura) (e : OsadaFile) (xs : List ℕ), ArchivoDeRuta s.disco basura path l e xs →
    ∀ n : ℕ, n < 2147483648 → ∀ r s', osadaTruncarArchivo basura path n s = (some r, s') →
      TruncaBien s s' l.posicion ((contenido s.disco xs).take e.fileSize) n r := by
  intro hall
  have ha : ArchivoDeRuta (Pokedex.inicial (discoConA 15 960)).disco .borrado rutaA _ _
      (List.range 15) := archivoDeRuta_conA (by decide) (by decide) .borrado
  have hlibres : libres (Pokedex.inicial (discoConA 15 960)).disco = 1 := libres_conArchivo
  have hn : 1024 < 2147483648 := by decide
  obtain ⟨s', hrun, hfs, hcadena, hbytes⟩ :=
    osadaTruncarArchivo_apply ha hn (by rw [hlibres]; decide)
  obtain ⟨_, ys, hys, _, htake⟩ := (hall _ _ _ _ _ _ ha 1024 hn 1 s' hrun).hecho rfl
  have hno : ¬ (((discoConA 15 960).archivos 0).fileSize < 1024 ∧
      1024 ≤ ((discoConA 15 960).archivos 0).fileSize +
        ((List.range 15).length + 1 - bloquesPara 1024) * 64) := by decide
  have hsesenta : ∀ b ∈ (contenido s'.disco ys).take
      (s'.disco.archivos 0).fileSize, b = 65 := by
    intro b hb
    rw [hys.unique hcadena, hbytes, truncado, hlibres, if_neg hno] at hb
    exact contenido_conA 15 960 _ b (List.mem_of_mem_take hb)
  rw [htake] at hsesenta
  have hcero : ∀ bytes : List UInt8, bytes.length ≤ 960 →
      (0 : UInt8) ∈ bytes.take 1024 ++ List.replicate (1024 - bytes.length) 0 := by
    intro bytes hle
    rw [List.mem_append, List.mem_replicate]
    exact .inr ⟨by omega, rfl⟩
  exact absurd (hsesenta 0 (hcero _ (List.length_take_le 960 _))) (by decide)

end TpSo.Osada
