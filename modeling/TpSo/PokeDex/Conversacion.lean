import TpSo.Osada.Corridas
import TpSo.Osada.Rutas
import TpSo.PokeDex.Servidor

/-!
# Conversations between a PokeDex client and its server

A script for every request that the server answers: the client writes its fields and the server
those of the answer, and each of them keeps to it however the network cuts the bytes. Where all the
requests have an answer the two ends understand each other, and where one has none the client waits.
-/

namespace TpSo.PokeDex

open Dialogue Rocket
open Osada (Cadena Pokedex)

abbrev servidor : Party := .here
abbrev cliente : Party := .there

/-! ## What passes over the connection -/

def campos : Pedido → List (List UInt8)
  | .abrirArchivo path => [Mensaje.abrirArchivo.bytes, bytesDeLargo path, texto path]
  | .leerArchivo size offset path =>
    [Mensaje.leerArchivo.bytes, bytesOfInt sizeofSizeT size, bytesDeInt offset, bytesDeLargo path,
      texto path]
  | .escribirArchivo offset path buf =>
    [Mensaje.escribirArchivo.bytes, bytesOfInt sizeofSizeT buf.length, bytesDeInt offset,
      bytesDeLargo path, texto path, buf]
  | .truncarArchivo path offset =>
    [Mensaje.truncarArchivo.bytes, bytesDeInt offset, bytesDeLargo path, texto path]
  | .borrarArchivo path => [Mensaje.eliminarArchivo.bytes, bytesDeLargo path, texto path]
  | .getDir path => [Mensaje.getDirectorio.bytes, bytesDeLargo path, texto path]
  | .getAttr path => [Mensaje.getAttr.bytes, bytesDeLargo path, texto path]
  | .crearDirectorio path => [Mensaje.crearDirectorio.bytes, bytesDeLargo path, texto path]
  | .crearArchivo path => [Mensaje.crearArchivo.bytes, bytesDeLargo path, texto path]
  | .renombrarArchivo desde hasta =>
    [Mensaje.renombrarArchivo.bytes, bytesDeLargo desde, texto desde, bytesDeLargo hasta,
      texto hasta]
  | .utimens path segundos =>
    [Mensaje.utimens.bytes, bytesDeLargo path, texto path, bytesOfInt sizeofTimeT segundos]

/-- The request as it is read: the numbers are those that their bytes hold. -/
def atendido : Pedido → Pedido
  | .leerArchivo size offset path => .leerArchivo size (i32 offset) path
  | .escribirArchivo offset path buf => .escribirArchivo (i32 offset) path buf
  | .truncarArchivo path offset => .truncarArchivo path (i32 offset)
  | .utimens path segundos => .utimens path (intOfBytes (bytesOfInt sizeofTimeT segundos))
  | pedido => pedido

/-- The fields of an answer, what the client makes of them, and whether the server ends with it. -/
structure Respuesta where
  campos : List (List UInt8)
  leido : Leido
  ultima : Bool

/-- A number of four bytes. -/
def Respuesta.entero (r : ℤ) (leido : ℤ → Leido) : Respuesta :=
  ⟨[bytesDeInt r], leido (i32 r), false⟩

/-- An operation of the disk, with what its result is answered with. -/
structure Operacion where
  tipo : Type
  op : Op Pokedex tipo
  respuesta : tipo → Option Respuesta

section Operacion
variable (m : Momento)

def operacion : Pedido → Operacion
  | .abrirArchivo path =>
    ⟨ℤ, Osada.osadaExisteArchivo m.basura path,
      fun existe =>
        some (.entero (if existe = 0 then 0 else 1) fun existe => .abierto (existe = 0))⟩
  | .leerArchivo size offset path =>
    ⟨Option (List UInt8), Osada.osadaLeerArchivo m.basura m.memoria path size offset,
      fun archivo => archivo.map fun archivo =>
        ⟨[(archivo ++ Osada.sinEscribir m.memoria size).take size],
          .archivo ((archivo ++ Osada.sinEscribir m.memoria size).take size), false⟩⟩
  | .escribirArchivo offset path buf =>
    ⟨ℤ, Osada.osadaEditarArchivo m.basura path offset (i32 buf.length) buf,
      fun bytesEscritos => some (.entero bytesEscritos .escritos)⟩
  | .truncarArchivo path offset =>
    ⟨ℤ, Osada.osadaTruncarArchivo m.basura path offset,
      fun out => some (.entero out fun creado => .truncado (if creado = 1 then 0 else creado))⟩
  | .borrarArchivo path =>
    ⟨ℤ, Osada.osadaEliminarArchivo m.basura path 0,
      fun resultado => some (.entero resultado .borrado)⟩
  | .getDir path =>
    ⟨List Osada.DirectoryElement, Osada.osadaEstructuraDirectorio m.basura m.memoria path,
      fun elementos => some ⟨bytesDeInt envioDataDirectorio :: bytesDeInt elementos.length ::
        elementos.flatMap camposDe, .directorio (elementos.map (·.nombre)), false⟩⟩
  | .getAttr path =>
    ⟨Option Osada.DirectoryAttr, Osada.osadaGetAtributosArchivo m.basura path, fun
      | none => some ⟨[bytesDeInt 1], .atributos none, false⟩
      | some atributos =>
        if atributos.tipoArchivo = .archivo then
          some ⟨[bytesDeInt 0, [1], bytesDeInt atributos.size, bytesDeInt atributos.lastmod],
            .atributos (some ⟨some (u32 atributos.size), u32 atributos.lastmod⟩), false⟩
        else
          some ⟨[bytesDeInt 0, [0], bytesDeInt atributos.lastmod],
            .atributos (some ⟨none, u32 atributos.lastmod⟩), false⟩⟩
  | .crearDirectorio path =>
    ⟨ℤ, Osada.osadaCrearDirectorio m.hora m.basura path,
      fun resultado => some ⟨[bytesOfInt 2 resultado], .directorioCreado (u32 (i16 resultado)),
        decide (Osada.liberaElPath path resultado)⟩⟩
  | .crearArchivo path =>
    ⟨ℤ, Osada.osadaCrearArchivo m.hora m.basura path,
      fun resultado =>
        some ⟨[bytesOfInt 2 resultado], .archivoCreado (i16 resultado), false⟩⟩
  | .renombrarArchivo desde hasta =>
    ⟨ℤ, Osada.osadaRenombrarArchivo m.basura desde hasta,
      fun result => some (.entero result fun renombrado => .renombrado (u32 renombrado))⟩
  | .utimens path segundos =>
    ⟨ℤ, Osada.osadaUtimens m.basura path segundos,
      fun resultado => some (.entero resultado fun creado =>
        .fechado (if creado = 1 then 0 else -1))⟩

def respuesta (pedido : Pedido) : Option Respuesta :=
  ((operacion m (atendido pedido)).op m.pokedex).1.bind (operacion m (atendido pedido)).respuesta

/-- There is an answer, and the server goes on after it. -/
def Contesta (pedido : Pedido) : Prop :=
  ∃ r, respuesta m pedido = some r ∧ r.ultima = false

end Operacion

/-- Every field, and what is to be read, has at least one byte, and so many as an `int` can
count. -/
def Cabe (pedido : Pedido) : Prop :=
  (∀ campo ∈ campos pedido, campo ≠ [] ∧ campo.length < 2147483648) ∧
    ∀ size offset path, pedido = .leerArchivo size offset path → 0 < size ∧ size < 2147483648

/-! ## The server reads what the client writes -/

@[simp] theorem length_texto (path : Cadena) : (texto path).length = path.1.length + 1 :=
  List.length_append

theorem texto_ne_nil (path : Cadena) : texto path ≠ [] := by simp [texto]

theorem cadenaDe_texto (path : Cadena) : cadenaDe (texto path) = path := by
  have hno : ∀ b ∈ path.1, (b ≠ 0) = true := by
    intro b hb
    have hne : b ≠ 0 := fun h => path.2 (h ▸ hb)
    simp [hne]
  apply Subtype.ext
  change (path.1 ++ [0]).takeWhile (· ≠ 0) = path.1
  rw [List.takeWhile_append_of_pos (by simpa using hno)]
  simp

section Servidor
variable {whole : Bool} {α : Type} {K : Talker α → Prop} {s : Script}

theorem lee_campo {d : List UInt8} {n : ℕ} {f : ℤ × List UInt8 → Talker α} (hd : d ≠ [])
    (hn : d.length = n) (hint : n < 2147483648) (hf : Reaches whole servidor K (f (1, d)) s) :
    Reaches whole servidor K (librocketRecibirMensaje n >>= f) ((cliente, d) :: s) := by
  apply (talks_recibirMensaje (p := servidor) hd hn hint).reaches
  intro r hr
  rwa [hr]

theorem lee_bloque {d : List UInt8} {size : ℤ} {f : ℤ × List UInt8 → Talker α} (hd : d ≠ [])
    (hn : size = d.length) (hint : d.length < 2147483648)
    (hf : Reaches whole servidor K (f (1, d)) s) :
    Reaches whole servidor K (recibirBloque size >>= f) ((cliente, d) :: s) := by
  subst hn
  rw [recibirBloque, if_neg (by omega), Int.toNat_natCast]
  exact lee_campo hd rfl hint hf

/-- The two ways of reading the length. -/
def Largo (largo : List UInt8 → ℤ) : Prop :=
  ∀ n : ℕ, n < 2147483648 → largo (bytesDeInt n) = n

theorem largo_int : Largo intOfBytes := by
  intro n hn
  rw [intOfBytes_bytesDeInt_eq]
  exact i32_natCast_of_lt hn

theorem largo_sinSigno : Largo sinSigno := by
  intro n hn
  rw [sinSigno, natOfBytes_bytesDeInt, u32_natCast_of_lt (by omega)]

theorem Largo.texto {largo : List UInt8 → ℤ} (hlargo : Largo largo) {path : Cadena}
    (hpath : (texto path).length < 2147483648) :
    largo (bytesDeLargo path) = (texto path).length := by
  rw [length_texto] at hpath ⊢
  exact_mod_cast hlargo _ hpath

theorem lee_path {largo : List UInt8 → ℤ} (hlargo : Largo largo) {path : Cadena}
    {f : Option Cadena → Talker α} (hpath : (texto path).length < 2147483648)
    (hf : Reaches whole servidor K (f (some path)) s) :
    Reaches whole servidor K (recibirPath largo >>= f)
      ((cliente, bytesDeLargo path) :: (cliente, texto path) :: s) := by
  have hlee : Reaches whole servidor (Ended (· = some path)) (recibirPath largo)
      [(cliente, bytesDeLargo path), (cliente, texto path)] := by
    apply lee_campo (bytesDeInt_ne_nil _) (length_bytesDeInt _) (by omega)
    rw [if_pos Int.one_pos]
    apply lee_bloque (texto_ne_nil path) (hlargo.texto hpath) hpath
    rw [if_pos Int.one_pos, cadenaDe_texto]
    exact .ends ⟨_, rfl, rfl⟩
  apply hlee.bind
  rintro y ⟨a, rfl, rfl⟩
  exact hf

end Servidor

/-- What the server does when it has read a request. -/
def contestar (m : Momento) (pedido : Pedido) : Talker (Option Pedido) :=
  conDisco m (operacion m pedido).op fun a =>
    match (operacion m pedido).respuesta a with
    | none => pure (some pedido)
    | some r => do
      enviarCampos r.campos
      if r.ultima then .stop else pure (some pedido)

section Lectura
variable {whole : Bool} {α : Type} {m : Momento} {K : Talker (Option Pedido) → Prop} {s : Script}

theorem lee_tipo (mensaje : Mensaje)
    (h : Reaches whole servidor K (interpretarMensaje m mensaje.toInt) s) :
    Reaches whole servidor K (manejarConexion m) ((cliente, mensaje.bytes) :: s) := by
  apply lee_campo (bytesDeInt_ne_nil _) (length_bytesDeInt _) (by omega)
  have hread : intOfBytes mensaje.bytes = mensaje.toInt := by cases mensaje <;> rfl
  rw [if_pos rfl]
  change Reaches whole servidor K (interpretarMensaje m (intOfBytes mensaje.bytes)) s
  rwa [hread]

theorem lee_conPath {largo : List UInt8 → ℤ} (hlargo : Largo largo) {path : Cadena}
    {x : Cadena → Op Pokedex α} {f : Cadena → α → Talker (Option Pedido)}
    (hpath : (texto path).length < 2147483648) (hK : K (conDisco m (x path) (f path))) :
    Reaches whole servidor K (conPath m largo x f)
      [(cliente, bytesDeLargo path), (cliente, texto path)] :=
  lee_path hlargo hpath (.ends hK)

theorem natOfBytes_sizeT {n : ℕ} (hn : n < 2147483648) :
    natOfBytes (bytesOfInt sizeofSizeT n) = n := by
  have h := natOfBytes_bytesOfInt sizeofSizeT n
  rw [sizeofSizeT] at h ⊢
  omega

theorem bytesOfInt_ne_nil {k : ℕ} (hk : 0 < k) (x : ℤ) : bytesOfInt k x ≠ [] := by
  rw [← List.length_pos_iff, length_bytesOfInt]
  exact hk

/-- Having read all that the client writes, the server is to answer it. -/
theorem lee_pedido {pedido : Pedido} (h : Cabe pedido) :
    Reaches whole servidor (· = contestar m (atendido pedido)) (manejarConexion m)
      ((campos pedido).map fun campo => (cliente, campo)) := by
  obtain ⟨hcampos, hsize⟩ := h
  have hcabe : ∀ campo ∈ campos pedido, campo.length < 2147483648 := fun campo hc =>
    (hcampos campo hc).2
  have hocho : ∀ x, (bytesOfInt sizeofSizeT x).length = sizeofSizeT := length_bytesOfInt 8
  cases pedido with
  | abrirArchivo path =>
    exact lee_tipo .abrirArchivo (lee_conPath largo_int (hcabe _ (by simp [campos])) rfl)
  | leerArchivo size offset path =>
    apply lee_tipo .leerArchivo
    apply lee_campo (bytesOfInt_ne_nil (by decide) _) (hocho _) (by decide)
    rw [if_pos Int.one_pos, natOfBytes_sizeT (hsize size offset path rfl).2]
    apply lee_campo (bytesDeInt_ne_nil _) (length_bytesDeInt _) (by omega)
    rw [if_pos Int.one_pos, intOfBytes_bytesDeInt_eq]
    apply lee_conPath largo_sinSigno (hcabe _ (by simp [campos]))
    unfold contestar
    congr 1
    funext archivo
    cases archivo <;> rfl
  | escribirArchivo offset path buf =>
    have hbuf := hcampos buf (by simp [campos])
    apply lee_tipo .escribirArchivo
    apply lee_campo (bytesOfInt_ne_nil (by decide) _) (hocho _) (by decide)
    rw [if_pos Int.one_pos, natOfBytes_sizeT hbuf.2]
    apply lee_campo (bytesDeInt_ne_nil _) (length_bytesDeInt _) (by omega)
    rw [if_pos Int.one_pos, intOfBytes_bytesDeInt_eq]
    have hpath := hcabe (texto path) (by simp [campos])
    apply lee_campo (bytesDeInt_ne_nil _) (length_bytesDeInt _) (by omega)
    rw [if_pos Int.one_pos]
    apply lee_bloque (texto_ne_nil path) (largo_sinSigno.texto hpath) hpath
    apply lee_campo hbuf.1 rfl hbuf.2
    rw [if_pos ⟨Int.one_pos, Int.one_pos⟩, cadenaDe_texto]
    exact .ends rfl
  | truncarArchivo path offset =>
    apply lee_tipo .truncarArchivo
    apply lee_campo (bytesDeInt_ne_nil _) (length_bytesDeInt _) (by omega)
    rw [if_pos Int.one_pos, intOfBytes_bytesDeInt_eq]
    exact lee_conPath largo_sinSigno (hcabe _ (by simp [campos])) rfl
  | borrarArchivo path =>
    exact lee_tipo .eliminarArchivo (lee_conPath largo_int (hcabe _ (by simp [campos])) rfl)
  | getDir path =>
    exact lee_tipo .getDirectorio (lee_conPath largo_int (hcabe _ (by simp [campos])) rfl)
  | getAttr path =>
    apply lee_tipo .getAttr
    apply lee_conPath largo_sinSigno (hcabe _ (by simp [campos]))
    unfold contestar
    congr 1
    funext atributos
    cases atributos with
    | none => rfl
    | some atributos =>
      by_cases harchivo : atributos.tipoArchivo = .archivo
      · simp only [operacion, atendido, if_pos harchivo]
        rfl
      · simp only [operacion, atendido, if_neg harchivo]
        rfl
  | crearDirectorio path =>
    apply lee_tipo .crearDirectorio
    apply lee_conPath largo_sinSigno (hcabe _ (by simp [campos]))
    unfold contestar
    congr 1
    funext resultado
    simp only [operacion, atendido, decide_eq_true_eq]
  | crearArchivo path =>
    exact lee_tipo .crearArchivo (lee_conPath largo_int (hcabe _ (by simp [campos])) rfl)
  | renombrarArchivo desde hasta =>
    have hdesde := hcabe (texto desde) (by simp [campos])
    have hhasta := hcabe (texto hasta) (by simp [campos])
    apply lee_tipo .renombrarArchivo
    apply lee_campo (bytesDeInt_ne_nil _) (length_bytesDeInt _) (by omega)
    apply lee_bloque (texto_ne_nil desde) (largo_sinSigno.texto hdesde) hdesde
    apply lee_campo (bytesDeInt_ne_nil _) (length_bytesDeInt _) (by omega)
    apply lee_bloque (texto_ne_nil hasta) (largo_sinSigno.texto hhasta) hhasta
    rw [if_pos ⟨Int.one_pos, Int.one_pos, Int.one_pos, Int.one_pos⟩, cadenaDe_texto,
      cadenaDe_texto]
    exact .ends rfl
  | utimens path segundos =>
    have hpath := hcabe (texto path) (by simp [campos])
    apply lee_tipo .utimens
    apply lee_campo (bytesDeInt_ne_nil _) (length_bytesDeInt _) (by omega)
    apply lee_bloque (texto_ne_nil path) (largo_sinSigno.texto hpath) hpath
    apply lee_campo (bytesOfInt_ne_nil (by decide) _) (hocho _) (by decide)
    rw [if_pos ⟨Int.one_pos, Int.one_pos, Int.one_pos⟩, cadenaDe_texto]
    exact .ends rfl

end Lectura

/-! ## The client reads what the server answers -/

section Cliente
variable {whole : Bool} {α : Type} {K : Talker α → Prop} {s : Script}

theorem escribe {cs : List (List UInt8)} {f : PUnit → Talker α} (h : ∀ campo ∈ cs, campo ≠ [])
    (hf : Reaches whole cliente K (f ⟨⟩) s) :
    Reaches whole cliente K (enviarCampos cs >>= f) (cs.map (fun campo => (cliente, campo)) ++ s) :=
  (talks_enviarCampos h).reaches fun _ _ => hf

theorem oye_campo {d : List UInt8} {n : ℕ} {f : ℤ × List UInt8 → Talker α} (hd : d ≠ [])
    (hn : d.length = n) (hint : n < 2147483648) (hf : Reaches whole cliente K (f (1, d)) s) :
    Reaches whole cliente K (librocketRecibirMensaje n >>= f) ((servidor, d) :: s) := by
  apply (talks_recibirMensaje (p := cliente) hd hn hint).reaches
  intro r hr
  rwa [hr]

theorem oye {d : List UInt8} {n : ℕ} {f : List UInt8 → Talker α} (hd : d ≠ [])
    (hn : d.length = n) (hint : n < 2147483648) (hf : Reaches whole cliente K (f d) s) :
    Reaches whole cliente K (recibirActiva n >>= f) ((servidor, d) :: s) := by
  have hactiva : Reaches whole cliente (Ended (· = d)) (recibirActiva n) [(servidor, d)] := by
    apply oye_campo hd hn hint
    rw [if_neg Int.one_ne_zero]
    exact .ends ⟨d, rfl, rfl⟩
  apply hactiva.bind
  rintro y ⟨a, rfl, rfl⟩
  exact hf

theorem oye_entero {r : ℤ} {f : List UInt8 → Talker α} (hf : Reaches whole cliente K
    (f (bytesDeInt r)) s) :
    Reaches whole cliente K (recibirActiva 4 >>= f) ((servidor, bytesDeInt r) :: s) :=
  oye (bytesDeInt_ne_nil r) (length_bytesDeInt r) (by omega) hf

theorem oye_elementos {elementos : List Osada.DirectoryElement}
    (h : ∀ e ∈ elementos, e.nombre.length = 17) :
    Reaches whole cliente (Ended (· = elementos.map (·.nombre)))
      (recibirElementos elementos.length)
      ((elementos.flatMap camposDe).map fun campo => (servidor, campo)) := by
  induction elementos with
  | nil => exact .ends ⟨_, rfl, rfl⟩
  | cons e es ih =>
    have hlen := h e List.mem_cons_self
    have hne : e.nombre ≠ [] := by
      rw [← List.length_pos_iff, hlen]
      omega
    apply oye hne hlen (by omega)
    apply oye_entero
    have htail := ih fun e he => h e (List.mem_cons_of_mem _ he)
    apply htail.bind_last
    rintro y ⟨nombres, rfl, rfl⟩
    exact .ends ⟨_, rfl, rfl⟩

theorem pide {pedido : Pedido} (h : Cabe pedido) :
    Reaches whole cliente Listening (pedir pedido)
      ((campos pedido).map fun campo => (cliente, campo)) := by
  have hne : ∀ campo ∈ campos pedido, campo ≠ [] := fun campo hc => (h.1 campo hc).1
  rw [← List.append_nil ((campos pedido).map fun campo => (cliente, campo))]
  cases pedido with
  | leerArchivo size offset path =>
    apply escribe hne
    apply Reaches.ends
    obtain ⟨n, rfl⟩ := Nat.exists_eq_succ_of_ne_zero (h.2 size offset path rfl).1.ne'
    exact ⟨_, _, rfl⟩
  | _ => exact escribe hne (.ends ⟨_, _, rfl⟩)

theorem oye_respuesta_entera {r : ℤ} {leido : ℤ → Leido} :
    Reaches whole cliente (Ended (· = (Respuesta.entero r leido).leido))
      (recibirActiva 4 >>= fun bytes => pure (leido (intOfBytes bytes)))
      ((Respuesta.entero r leido).campos.map fun campo => (servidor, campo)) := by
  apply oye_entero
  rw [intOfBytes_bytesDeInt_eq]
  exact .ends ⟨_, rfl, rfl⟩

/-- The same, when the client does not look at the connection. -/
theorem oye_respuesta_sin_mirar {r : ℤ} {leido : ℤ → Leido} :
    Reaches whole cliente (Ended (· = (Respuesta.entero r leido).leido))
      (librocketRecibirMensaje 4 >>= fun creado => pure (leido (intOfBytes creado.2)))
      ((Respuesta.entero r leido).campos.map fun campo => (servidor, campo)) := by
  apply oye_campo (bytesDeInt_ne_nil _) (length_bytesDeInt _) (by omega)
  rw [intOfBytes_bytesDeInt_eq]
  exact .ends ⟨_, rfl, rfl⟩

theorem oye_respuesta_corta {r : ℤ} (leido : ℤ → Leido) :
    Reaches whole cliente (Ended (· = leido (i16 r)))
      (recibirActiva 2 >>= fun creado => pure (leido (intOfBytes creado)))
      [(servidor, bytesOfInt 2 r)] := by
  apply oye (bytesOfInt_ne_nil (by decide) _) (length_bytesOfInt 2 _) (by omega)
  rw [intOfBytes_bytesOfInt_two]
  exact .ends ⟨_, rfl, rfl⟩

theorem length_leido (m : Momento) (size : ℕ) (archivo : List UInt8) :
    ((archivo ++ Osada.sinEscribir m.memoria size).take size).length = size := by
  simp only [Osada.sinEscribir, List.length_take, List.length_append, List.length_map,
    List.length_range]
  omega

/-- What is answered is what the client waits for. -/
theorem oye_respuesta {m : Momento} {pedido : Pedido} {r : Respuesta} (h : Cabe pedido)
    (hr : respuesta m pedido = some r) :
    Reaches whole cliente (Ended (· = r.leido)) (pedir pedido)
      ((campos pedido).map (fun campo => (cliente, campo)) ++
        r.campos.map fun campo => (servidor, campo)) := by
  have hne : ∀ campo ∈ campos pedido, campo ≠ [] := fun campo hc => (h.1 campo hc).1
  obtain ⟨a, ha, hr⟩ := Option.bind_eq_some_iff.mp hr
  cases pedido with
  | abrirArchivo path =>
    obtain rfl := Option.some.inj hr
    exact escribe hne oye_respuesta_entera
  | leerArchivo size offset path =>
    obtain ⟨archivo, _, rfl⟩ := Option.map_eq_some_iff.mp hr
    have hsize := h.2 size offset path rfl
    have hlen := length_leido m size archivo
    have hleido : (archivo ++ Osada.sinEscribir m.memoria size).take size ≠ [] := by
      rw [← List.length_pos_iff, hlen]
      exact hsize.1
    apply escribe hne
    apply oye hleido hlen hsize.2
    exact .ends ⟨_, rfl, rfl⟩
  | escribirArchivo offset path buf =>
    obtain rfl := Option.some.inj hr
    exact escribe hne oye_respuesta_entera
  | truncarArchivo path offset =>
    obtain rfl := Option.some.inj hr
    exact escribe hne oye_respuesta_sin_mirar
  | borrarArchivo path =>
    obtain rfl := Option.some.inj hr
    exact escribe hne oye_respuesta_sin_mirar
  | getDir path =>
    obtain rfl := Option.some.inj hr
    obtain ⟨hcantidad, hnombres⟩ := Osada.length_osadaEstructuraDirectorio ha
    apply escribe hne
    apply oye_entero
    rw [if_neg (by decide)]
    apply oye_entero
    rw [intOfBytes_bytesDeInt_eq, i32_natCast_of_lt (by omega), Int.toNat_natCast]
    apply (oye_elementos hnombres).bind_last
    rintro y ⟨nombres, rfl, rfl⟩
    exact .ends ⟨_, rfl, rfl⟩
  | getAttr path =>
    cases a with
    | none =>
      obtain rfl := Option.some.inj hr
      apply escribe hne
      apply oye_entero
      exact .ends ⟨_, rfl, rfl⟩
    | some atributos =>
      by_cases harchivo : atributos.tipoArchivo = .archivo
      · simp only [operacion, atendido, if_pos harchivo] at hr
        obtain rfl := Option.some.inj hr
        apply escribe hne
        apply oye_entero
        rw [if_neg (by decide)]
        apply oye (List.cons_ne_nil 1 []) rfl (by decide)
        rw [if_pos (by decide)]
        apply oye_campo (bytesDeInt_ne_nil _) (length_bytesDeInt _) (by omega)
        apply oye_entero
        rw [natOfBytes_bytesDeInt, natOfBytes_bytesDeInt]
        exact .ends ⟨_, rfl, rfl⟩
      · simp only [operacion, atendido, if_neg harchivo] at hr
        obtain rfl := Option.some.inj hr
        apply escribe hne
        apply oye_entero
        rw [if_neg (by decide)]
        apply oye (List.cons_ne_nil 0 []) rfl (by decide)
        rw [if_neg (by decide)]
        apply oye_entero
        rw [natOfBytes_bytesDeInt]
        exact .ends ⟨_, rfl, rfl⟩
  | crearDirectorio path =>
    obtain rfl := Option.some.inj hr
    exact escribe hne (oye_respuesta_corta fun creado => .directorioCreado (u32 creado))
  | crearArchivo path =>
    obtain rfl := Option.some.inj hr
    exact escribe hne (oye_respuesta_corta .archivoCreado)
  | renombrarArchivo desde hasta =>
    obtain rfl := Option.some.inj hr
    exact escribe hne oye_respuesta_entera
  | utimens path segundos =>
    obtain rfl := Option.some.inj hr
    exact escribe hne oye_respuesta_sin_mirar

end Cliente

/-! ## The answer -/

section Contestar
variable {m : Momento} {pedido : Pedido} {r : Respuesta}

theorem contestar_eq_some (hr : respuesta m pedido = some r) (hsigue : r.ultima = false) :
    contestar m (atendido pedido) = responder r.campos (atendido pedido) := by
  obtain ⟨a, ha, hr⟩ := Option.bind_eq_some_iff.mp hr
  rw [contestar, conDisco, ha]
  simp only [hr, hsigue, Bool.false_eq_true, if_false]
  rfl

theorem contestar_eq_ultima (hr : respuesta m pedido = some r) (hultima : r.ultima = true) :
    contestar m (atendido pedido) = (enviarCampos r.campos >>= fun _ => .stop) := by
  obtain ⟨a, ha, hr⟩ := Option.bind_eq_some_iff.mp hr
  rw [contestar, conDisco, ha]
  simp only [hr, hultima, if_true]

/-- Without an answer the server is stopped, or has nothing to say. -/
theorem contestar_eq_none (hr : respuesta m pedido = none) :
    contestar m (atendido pedido) = .stop ∨
      contestar m (atendido pedido) = pure (some (atendido pedido)) := by
  rw [contestar, conDisco]
  rcases ha : ((operacion m (atendido pedido)).op m.pokedex).1 with _ | a
  · exact .inl rfl
  · rw [respuesta, ha, Option.bind_some] at hr
    right
    simp only [hr]

end Contestar

/-! ## One request after another -/

/-- A request, and the moment at which the server attends it. -/
abbrev Peticion := Pedido × Momento

abbrev Resultado : Party → Type
  | .here => List (Option Pedido)
  | .there => List Leido

/-- The client makes its requests and the server attends them, on a new connection. -/
def inicio (peticiones : List Peticion) : Config Resultado where
  party
    | .here => hiloManejarConexiones (peticiones.map Prod.snd)
    | .there => pedirTodo (peticiones.map Prod.fst)
  wire _ := []

def SeEntienden (peticiones : List Peticion) : (p : Party) → Resultado p → Prop
  | .here, atendidos => atendidos = peticiones.map fun e => some (atendido e.1)
  | .there, leidos =>
    leidos.map some = peticiones.map fun e => (respuesta e.2 e.1).map Respuesta.leido

/-- Whatever the network does, nobody is left waiting and no bytes are left over. -/
def Conversan (peticiones : List Peticion) : Prop :=
  ∀ es c, Run Step (inicio peticiones) es c →
    (Finished (SeEntienden peticiones) c ∨ ∃ e c', Step c e c') ∧
      Acc (fun c' c => ∃ e, Step c e c') c

section Conversan
variable (whole : Bool) {peticiones : List Peticion}

/-- What the two ends say to each other over a request. -/
def guion (e : Peticion) : Script :=
  (campos e.1).map (fun campo => (cliente, campo)) ++
    ((respuesta e.2 e.1).elim [] Respuesta.campos).map fun campo => (servidor, campo)

theorem guion_eq {e : Peticion} {r : Respuesta} (hr : respuesta e.2 e.1 = some r) :
    guion e = (campos e.1).map (fun campo => (cliente, campo)) ++
      r.campos.map fun campo => (servidor, campo) := by
  rw [guion, hr, Option.elim_some]

/-- The server attends a request that has an answer, and goes on. -/
theorem sirve_una {α : Type} {K : Talker α → Prop} {s : Script} {e : Peticion} {r : Respuesta}
    {f : Option Pedido → Talker α} (h : Cabe e.1) (hr : respuesta e.2 e.1 = some r)
    (hsigue : r.ultima = false)
    (hf : Reaches whole servidor K (f (some (atendido e.1))) s) :
    Reaches whole servidor K (manejarConexion e.2 >>= f) (guion e ++ s) := by
  have hoye : Reaches whole cliente _ _ _ := oye_respuesta h hr
  have hne : ∀ campo ∈ r.campos, campo ≠ [] := fun campo hc =>
    hoye.ne_nil (servidor, campo) (List.mem_append_right _ (List.mem_map_of_mem hc))
  have hresponde : Talks whole servidor (· = some (atendido e.1)) (contestar e.2 (atendido e.1))
      (r.campos.map fun campo => (servidor, campo)) := by
    rw [contestar_eq_some hr hsigue]
    apply (talks_enviarCampos hne).bind_last
    exact fun _ _ => Talks.pure rfl
  rw [guion_eq hr, List.append_assoc]
  apply (lee_pedido h).bind
  rintro y rfl
  apply hresponde.reaches
  rintro _ rfl
  exact hf

theorem sirve (h : ∀ e ∈ peticiones, Cabe e.1 ∧ Contesta e.2 e.1) :
    Reaches whole servidor (Ended (SeEntienden peticiones .here))
      (hiloManejarConexiones (peticiones.map Prod.snd)) (peticiones.flatMap guion) := by
  induction peticiones with
  | nil => exact .ends ⟨[], rfl, rfl⟩
  | cons e es ih =>
    obtain ⟨hcabe, r, hr, hsigue⟩ := h e List.mem_cons_self
    apply sirve_una whole hcabe hr hsigue
    apply (ih fun e he => h e (List.mem_cons_of_mem _ he)).bind_last
    rintro y ⟨atendidos, rfl, hatendidos⟩
    refine .ends ⟨_, rfl, ?_⟩
    rw [hatendidos]
    rfl

theorem pregunta (h : ∀ e ∈ peticiones, Cabe e.1 ∧ Contesta e.2 e.1) :
    Reaches whole cliente (Ended (SeEntienden peticiones .there))
      (pedirTodo (peticiones.map Prod.fst)) (peticiones.flatMap guion) := by
  induction peticiones with
  | nil => exact .ends ⟨[], rfl, rfl⟩
  | cons e es ih =>
    obtain ⟨hcabe, r, hr, _⟩ := h e List.mem_cons_self
    rw [List.flatMap_cons, guion_eq hr]
    apply (oye_respuesta hcabe hr).bind
    rintro y ⟨_, rfl, rfl⟩
    apply (ih fun e he => h e (List.mem_cons_of_mem _ he)).bind_last
    rintro y ⟨leidos, rfl, hleidos⟩
    refine .ends ⟨_, rfl, ?_⟩
    change some r.leido :: leidos.map some = _
    rw [hleidos, List.map_cons, hr, Option.map_some]

section Sigue
variable {antes despues : List Peticion} {e : Peticion} {r : Respuesta}

theorem pregunta_antes {K : Talker (List Leido) → Prop} {x : Script}
    (h : ∀ e ∈ antes, Cabe e.1 ∧ Contesta e.2 e.1)
    (hK : ∀ y (f : List Leido → List Leido), K y → K (y >>= fun leidos => pure (f leidos)))
    (hx : Reaches whole cliente K (pedirTodo (despues.map Prod.fst)) x) :
    Reaches whole cliente K (pedirTodo ((antes ++ despues).map Prod.fst))
      (antes.flatMap guion ++ x) := by
  induction antes with
  | nil => exact hx
  | cons e es ih =>
    obtain ⟨hcabe, r, hr, _⟩ := h e List.mem_cons_self
    rw [List.flatMap_cons, List.append_assoc, guion_eq hr]
    apply (oye_respuesta hcabe hr).bind
    rintro y ⟨_, rfl, rfl⟩
    apply (ih fun e he => h e (List.mem_cons_of_mem _ he)).bind_last
    exact fun y hy => .ends (hK y _ hy)

theorem sirve_antes {K : Talker (List (Option Pedido)) → Prop} {x : Script}
    (h : ∀ e ∈ antes, Cabe e.1 ∧ Contesta e.2 e.1)
    (hK : ∀ y (f : List (Option Pedido) → List (Option Pedido)), K y →
      K (y >>= fun atendidos => pure (f atendidos)))
    (hx : Reaches whole servidor K (hiloManejarConexiones (despues.map Prod.snd)) x) :
    Reaches whole servidor K (hiloManejarConexiones ((antes ++ despues).map Prod.snd))
      (antes.flatMap guion ++ x) := by
  induction antes with
  | nil => exact hx
  | cons e es ih =>
    obtain ⟨hcabe, r, hr, hsigue⟩ := h e List.mem_cons_self
    rw [List.flatMap_cons, List.append_assoc]
    apply sirve_una whole hcabe hr hsigue
    apply (ih fun e he => h e (List.mem_cons_of_mem _ he)).bind_last
    exact fun y hy => .ends (hK y _ hy)

/-- A request that is not answered: the server comes to say nothing, and the client waits. -/
theorem trabados (despues : List Peticion) (h : ∀ e ∈ antes, Cabe e.1 ∧ Contesta e.2 e.1)
    (hcabe : Cabe e.1) (hr : respuesta e.2 e.1 = none) :
    ∃ x, Reaches whole cliente Listening (pedirTodo ((antes ++ e :: despues).map Prod.fst)) x ∧
      Reaches whole servidor Silent
        (hiloManejarConexiones ((antes ++ e :: despues).map Prod.snd)) x := by
  refine ⟨antes.flatMap guion ++ (campos e.1).map fun campo => (cliente, campo),
    pregunta_antes whole h (fun y _ hy => hy.bind _) ?_,
    sirve_antes whole h (fun y _ hy => hy.bind fun _ => Silent.pure _) ?_⟩
  · apply (pide hcabe).bind_last
    exact fun y hy => .ends (hy.bind _)
  · apply (lee_pedido hcabe).bind_last
    rintro y rfl
    apply Reaches.ends
    rcases contestar_eq_none hr with hy | hy
    · rw [hy]
      intro d next heq
      cases heq
    · rw [hy]
      -- the next round, if there is one, begins with a `recv`
      cases despues <;> intro d next heq <;> cases heq

/-- An answer that is the last one: the client comes to its end, and the server dies. -/
theorem muere (h : ∀ e ∈ antes, Cabe e.1 ∧ Contesta e.2 e.1) (hcabe : Cabe e.1)
    (hr : respuesta e.2 e.1 = some r) (hultima : r.ultima = true) :
    ∃ x, Reaches whole cliente (Ended fun _ => True) (pedirTodo ((antes ++ [e]).map Prod.fst)) x ∧
      Reaches whole servidor (· = .stop) (hiloManejarConexiones ((antes ++ [e]).map Prod.snd)) x := by
  have hoye : Reaches whole cliente _ _ _ := oye_respuesta hcabe hr
  have hne : ∀ campo ∈ r.campos, campo ≠ [] := fun campo hc =>
    hoye.ne_nil (servidor, campo) (List.mem_append_right _ (List.mem_map_of_mem hc))
  refine ⟨_, pregunta_antes whole h ?_ (hoye.bind_last ?_), sirve_antes whole h ?_ ?_⟩
  · rintro y f ⟨leidos, rfl, -⟩
    exact ⟨_, rfl, trivial⟩
  · rintro y ⟨_, rfl, -⟩
    exact .ends ⟨_, rfl, trivial⟩
  · rintro y f rfl
    rfl
  · have hdice : Reaches whole servidor (· = .stop)
        (enviarCampos r.campos >>= fun _ => (.stop : Talker (Option Pedido)))
        (r.campos.map (fun campo => (servidor, campo)) ++ []) :=
      (talks_enviarCampos hne).reaches fun _ _ => .ends rfl
    rw [List.append_nil] at hdice
    apply (lee_pedido hcabe).bind
    rintro y rfl
    rw [contestar_eq_ultima hr hultima]
    apply hdice.bind_last
    rintro y rfl
    exact .ends rfl

end Sigue

/-- The client waits for a server that says nothing. -/
def Trabado : (p : Party) → Talker (Resultado p) → Prop
  | .here => Silent
  | .there => Listening

theorem Trabado.silent {p : Party} {x : Talker (Resultado p)} (h : Trabado p x) : Silent x := by
  cases p with
  | here => exact h
  | there => exact Listening.silent h

/-- A request without an answer leaves the client waiting. -/
theorem conversacion_trabada {antes despues : List Peticion} {e : Peticion}
    (h : ∀ e ∈ antes, Cabe e.1 ∧ Contesta e.2 e.1) (hcabe : Cabe e.1)
    (hr : respuesta e.2 e.1 = none) :
    ∃ es c, Run Step (inicio (antes ++ e :: despues)) es c ∧ (¬ ∃ e c', Step c e c') ∧
      Listening (c.party cliente) := by
  obtain ⟨s, hcliente, hservidor⟩ := trabados true despues h hcabe hr
  have hinicio : Abreast true Trabado (inicio (antes ++ e :: despues)) := by
    apply abreast_start (fun _ => rfl)
    intro p
    cases p with
    | here => exact hservidor
    | there => exact hcliente
  have hmudo := fun p x (h : Trabado p x) => h.silent
  obtain ⟨es, c, hrun, hfin⟩ := hinicio.exists_run hmudo
  exact ⟨es, c, hrun, hfin.no_step hmudo, (hfin cliente).2⟩

def Muerto : (p : Party) → Talker (Resultado p) → Prop
  | .here => (· = .stop)
  | .there => Ended fun _ => True

theorem Muerto.silent {p : Party} {x : Talker (Resultado p)} (h : Muerto p x) : Silent x := by
  cases p with
  | here =>
    obtain rfl : x = .stop := h
    intro d next heq
    cases heq
  | there => exact Ended.silent h

/-- What each end has to do after the first requests. -/
def despuesDe (despues : List Peticion) : (p : Party) → Resultado p → Talker (Resultado p)
  | .here, atendidos => do
    let otros ← hiloManejarConexiones (despues.map Prod.snd)
    pure (atendidos ++ otros)
  | .there, leidos => do
    let otros ← pedirTodo (despues.map Prod.fst)
    pure (leidos ++ otros)

theorem pedirTodo_append (antes despues : List Pedido) : pedirTodo (antes ++ despues) =
    pedirTodo antes >>= fun leidos => pedirTodo despues >>= fun otros => pure (leidos ++ otros) := by
  induction antes with
  | nil => exact (Prog.bind_pure _).symm
  | cons pedido pedidos ih =>
    rw [List.cons_append, pedirTodo, ih, pedirTodo, Prog.bind_assoc]
    refine congrArg _ (funext fun leido => ?_)
    rw [Prog.bind_assoc, Prog.bind_assoc]
    refine congrArg _ (funext fun leidos => ?_)
    rw [Prog.bind_assoc]
    rfl

theorem hiloManejarConexiones_append (antes despues : List Momento) :
    hiloManejarConexiones (antes ++ despues) = hiloManejarConexiones antes >>= fun atendidos =>
      hiloManejarConexiones despues >>= fun otros => pure (atendidos ++ otros) := by
  induction antes with
  | nil => exact (Prog.bind_pure _).symm
  | cons m ms ih =>
    rw [List.cons_append, hiloManejarConexiones, ih, hiloManejarConexiones, Prog.bind_assoc]
    refine congrArg _ (funext fun atendido => ?_)
    rw [Prog.bind_assoc, Prog.bind_assoc]
    refine congrArg _ (funext fun atendidos => ?_)
    rw [Prog.bind_assoc]
    rfl

theorem inicio_append (antes despues : List Peticion) :
    inicio (antes ++ despues) = (inicio antes).andThen (despuesDe despues) := by
  have hparty : (inicio (antes ++ despues)).party =
      ((inicio antes).andThen (despuesDe despues)).party := by
    funext p
    cases p with
    | here =>
      change hiloManejarConexiones ((antes ++ despues).map Prod.snd) = _
      rw [List.map_append, hiloManejarConexiones_append]
      rfl
    | there =>
      change pedirTodo ((antes ++ despues).map Prod.fst) = _
      rw [List.map_append, pedirTodo_append]
      rfl
  exact Config.ext hparty rfl

/-- After an answer that is the last one the server is dead. -/
theorem conversacion_cortada {antes despues : List Peticion} {e : Peticion} {r : Respuesta}
    (h : ∀ e ∈ antes, Cabe e.1 ∧ Contesta e.2 e.1) (hcabe : Cabe e.1)
    (hr : respuesta e.2 e.1 = some r) (hultima : r.ultima = true) :
    ∃ es c, Run Step (inicio (antes ++ e :: despues)) es c ∧ c.party servidor = .stop := by
  obtain ⟨s, hcliente, hservidor⟩ := muere true h hcabe hr hultima
  have hinicio : Abreast true Muerto (inicio (antes ++ [e])) := by
    apply abreast_start (fun _ => rfl)
    intro p
    cases p with
    | here => exact hservidor
    | there => exact hcliente
  obtain ⟨es, c, hrun, hfin⟩ := hinicio.exists_run fun p x h => Muerto.silent h
  refine ⟨es, c.andThen (despuesDe despues), ?_, ?_⟩
  · rw [List.append_cons, inicio_append]
    exact run_andThen hrun _
  · have hstop : c.party servidor = .stop := (hfin servidor).2
    change c.party servidor >>= _ = _
    rw [hstop]
    rfl

theorem exists_first {α : Type} {P : α → Prop} {l : List α} (h : ¬ ∀ x ∈ l, P x) :
    ∃ antes x despues, l = antes ++ x :: despues ∧ (∀ y ∈ antes, P y) ∧ ¬ P x := by
  induction l with
  | nil => exact absurd (by simp) h
  | cons x l ih =>
    by_cases hx : P x
    · have hresto : ¬ ∀ y ∈ l, P y := fun hall => h (List.forall_mem_cons.mpr ⟨hx, hall⟩)
      obtain ⟨antes, y, despues, rfl, hantes, hy⟩ := ih hresto
      exact ⟨x :: antes, y, despues, rfl, List.forall_mem_cons.mpr ⟨hx, hantes⟩, hy⟩
    · exact ⟨[], x, l, rfl, by simp, hx⟩

theorem contesta_of_conversan (hcabe : ∀ e ∈ peticiones, Cabe e.1) (h : Conversan peticiones) :
    ∀ e ∈ peticiones, Contesta e.2 e.1 := by
  by_contra hno
  obtain ⟨antes, e, despues, rfl, hantes, hno⟩ := exists_first hno
  have hbien : ∀ e ∈ antes, Cabe e.1 ∧ Contesta e.2 e.1 := fun a ha =>
    ⟨hcabe a (List.mem_append_left _ ha), hantes a ha⟩
  have hcabe' : Cabe e.1 := hcabe e (List.mem_append_right _ List.mem_cons_self)
  rcases hr : respuesta e.2 e.1 with _ | r
  · obtain ⟨es, c, hrun, hstep, size, next, hespera⟩ := conversacion_trabada hbien hcabe' hr
    rcases (h es c hrun).1 with hfin | hsigue
    · obtain ⟨_, _, hret, _⟩ := hfin cliente
      rw [hespera] at hret
      cases hret
    · exact hstep hsigue
  · have hultima : r.ultima = true := by
      by_contra hf
      exact hno ⟨r, hr, by simpa using hf⟩
    obtain ⟨es, c, hrun, hstop⟩ := conversacion_cortada hbien hcabe' hr hultima
    obtain ⟨es', c', hrun', hfin⟩ := exists_unfinished hstop (SeEntienden _)
    exact hfin (h _ c' (hrun.append hrun')).1

theorem abreast_inicio (h : ∀ e ∈ peticiones, Cabe e.1 ∧ Contesta e.2 e.1) :
    Abreast whole (fun p => Ended (SeEntienden peticiones p)) (inicio peticiones) := by
  apply abreast_start (fun _ => rfl)
  intro p
  cases p with
  | here => exact sirve whole h
  | there => exact pregunta whole h

/-- Whatever pieces the bytes go out and come in, the two ends understand each other. -/
theorem conversan_of_contesta (h : ∀ e ∈ peticiones, Cabe e.1 ∧ Contesta e.2 e.1) :
    Conversan peticiones := by
  intro es c hrun
  have hinicio : InStep false (SeEntienden peticiones) (inicio peticiones) :=
    inStep_iff.mpr (abreast_inicio false h)
  have hrun' := hrun.mono fun _ e _ hstep => (⟨hstep, e.allowed_false⟩ : _ ∧ e.Allowed false)
  rcases (hinicio.run hrun').finished_or_step with hfin | ⟨e, c', hstep, _⟩
  · exact ⟨.inl hfin, acc_step c⟩
  · exact ⟨.inr ⟨e, c', hstep⟩, acc_step c⟩

end Conversan

end TpSo.PokeDex
