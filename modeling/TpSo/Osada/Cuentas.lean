import TpSo.Osada.Ordenes

/-!
# What a request knows of the disk

Whatever the others do, a request knows its own blocks and what their cells say. Its account
also has how many blocks it may still ask for: none before its check, `promesa` from the check
on. As long as no search fails, every write and every truncation keeps to `protocolo`; with
`seguro` it asks for no more than it may.
-/

namespace TpSo.Osada.Hilado

open Function (update)

/-- The account of a request on a disk of `n` data blocks. -/
structure Cuenta (n : ℕ) where
  propios : Finset ℕ
  tomados : Finset ℕ
  celdas : ℕ → ℕ
  cupo : Option ℕ
  enRango : ∀ b ∈ propios, b < n

namespace Cuenta

variable {n : ℕ} (g : Cuenta n)

/-- The first check of a request is the one that counts. -/
def conPromesa (k : ℕ) : Cuenta n := { g with cupo := some (g.cupo.getD k) }

/-- Block `b` is its own from here on; `v` is what its cell says. -/
def conBloque (b v : ℕ) (hb : b < n) : Cuenta n where
  propios := insert b g.propios
  tomados := insert b g.tomados
  celdas := update g.celdas b v
  cupo := g.cupo.map (· - 1)
  enRango c hc := by
    rcases Finset.mem_insert.mp hc with rfl | hc
    · exact hb
    · exact g.enRango c hc

def conCelda (posicion valor : ℕ) : Cuenta n :=
  { g with celdas := update g.celdas posicion valor }

def sin (b : ℕ) : Cuenta n where
  propios := g.propios.erase b
  tomados := g.tomados
  celdas := g.celdas
  cupo := g.cupo
  enRango c hc := g.enRango c (Finset.mem_of_mem_erase hc)

end Cuenta

section Protocolo
variable (H : OsadaHeader) (promesa : ℕ → ℕ) (seguro : Prop)

/-- A request writes its own blocks and cells and frees blocks that it did not ask for. What a
check counts as free is nobody's. -/
def protocolo : Protocol Orden Orden.Respuesta (Cuenta H.dataBlocks) where
  pre
    | .obtenerPrimerBloqueLibre, g => seguro → ∃ m, g.cupo = some (m + 1)
    | .asignar posicion valor, g =>
      posicion ∈ g.propios ∧ (valor ∈ g.propios ∨ valor = uint32Max)
    | .escribir bloque posicion bytes, g =>
      bloque ∈ g.propios ∧ 0 ≤ posicion ∧ posicion + bytes.length ≤ 64
    | .editarBloqueEnBitmap nBloque ocupado, g =>
      ocupado = false ∧ nBloque ∈ g.propios ∧ nBloque ∉ g.tomados
    | .obtenerBloquesLibres, _ | .obtenerTablaAsignaciones, _ | .reemplazar _ _, _ => True
  post
    | .obtenerBloquesLibres, g, r, g' =>
      r + g.propios.card ≤ H.dataBlocks ∧ g' = g.conPromesa (promesa r)
    | .obtenerTablaAsignaciones, g, r, g' => (∀ b ∈ g.propios, r b = g.celdas b) ∧ g' = g
    | .obtenerPrimerBloqueLibre, g, r, g' =>
      ∃ b v, ∃ hb : b < H.dataBlocks, r = (b : ℤ) ∧ b ∉ g.propios ∧ g' = g.conBloque b v hb
    | .asignar posicion valor, g, _, g' => g' = g.conCelda posicion valor
    | .editarBloqueEnBitmap nBloque _, g, _, g' => g' = g.sin nBloque
    | .escribir _ _ _, g, _, g' | .reemplazar _ _, g, _, g' => g' = g
  stopped := False

end Protocolo

/-- The chain `xs` from `desde` in the private copy of the table, all of it its own. -/
structure Cola {n : ℕ} (g : Cuenta n) (asignaciones : ℕ → ℕ) (desde : ℕ) (xs : List ℕ) :
    Prop where
  copia : ∀ b ∈ g.propios, asignaciones b = g.celdas b
  cadena : Chain asignaciones uint32Max desde xs
  propios : ∀ b ∈ xs, b ∈ g.propios

structure Cuenta.Toma {n : ℕ} (g : Cuenta n) (b : ℕ) (g' : Cuenta n) : Prop where
  propios : g'.propios = insert b g.propios
  tomados : g'.tomados = insert b g.tomados
  cupo : g'.cupo = g.cupo.map (· - 1)
  nuevo : b ∉ g.propios

section Ordenes
variable {H : OsadaHeader} {promesa : ℕ → ℕ} {seguro : Prop} {g : Cuenta H.dataBlocks}
  {asignaciones : ℕ → ℕ} {desde posicion valor : ℕ} {xs : List ℕ}

theorem sigue_asignar {Q : PUnit → Cuenta H.dataBlocks → Prop} (hp : posicion ∈ g.propios)
    (hv : valor ∈ g.propios ∨ valor = uint32Max) (h : Q ⟨⟩ (g.conCelda posicion valor)) :
    (protocolo H promesa seguro).Follows Q (asignar posicion valor) g :=
  .command ⟨hp, hv⟩ fun _ g' hg => by rwa [show g' = _ from hg]

theorem sigue_asignarSiguiente {Q : (ℕ → ℕ) → Cuenta H.dataBlocks → Prop}
    (hgrande : H.dataBlocks < uint32Max) (hp : posicion ∈ g.propios)
    (hv : valor ∈ g.propios ∨ valor = uint32Max)
    (h : Q (update asignaciones posicion valor) (g.conCelda posicion valor)) :
    (protocolo H promesa seguro).Follows Q (asignarSiguiente posicion valor asignaciones) g := by
  have hlt := g.enRango posicion hp
  refine .bind (sigue_asignar hp hv ?_)
  rw [if_neg (by omega)]
  exact h

/-- A block is asked for, and what follows copes with the one that is granted. -/
theorem sigue_pedir {α : Type} {Q : α → Cuenta H.dataBlocks → Prop} {f : ℤ → Programa α}
    (hcupo : seguro → ∃ m, g.cupo = some (m + 1))
    (hgranted : ∀ b v (hb : b < H.dataBlocks), b ∉ g.propios →
      (protocolo H promesa seguro).Follows Q (f b) (g.conBloque b v hb)) :
    (protocolo H promesa seguro).Follows Q (obtenerPrimerBloqueLibre >>= f) g := by
  refine .bind (.command hcupo ?_)
  rintro r g' ⟨b, v, hb, hr, hnuevo, hg'⟩
  rw [hr, hg']
  exact hgranted b v hb hnuevo

theorem sigue_pedirPrimero (hgrande : H.dataBlocks < uint32Max)
    (hcupo : seguro → ∃ m, g.cupo = some (m + 1))
    (hcopia : ∀ b ∈ g.propios, asignaciones b = g.celdas b) :
    (protocolo H promesa seguro).Follows (fun r g' => g.Toma r.1 g' ∧ Cola g' r.2 r.1 [r.1])
      (pedirPrimero asignaciones) g := by
  apply sigue_pedir hcupo
  intro b v hb hnuevo
  have hcast : u32 (b : ℤ) = b := u32_natCast_of_lt (by unfold uint32Max at hgrande; omega)
  have hself : b ∈ (g.conBloque b v hb).propios := Finset.mem_insert_self _ _
  rw [hcast]
  apply Protocol.Follows.bind
  apply sigue_asignarSiguiente hgrande hself (.inr rfl)
  refine ⟨⟨rfl, rfl, rfl, hnuevo⟩, ?_, .single (by omega), ?_⟩
  · intro c hc
    by_cases hcb : c = b
    · subst hcb
      simp [Cuenta.conCelda]
    · have hmem : c ∈ g.propios := (Finset.mem_insert.mp hc).resolve_left hcb
      simp [Cuenta.conCelda, Cuenta.conBloque, hcb, hcopia c hmem]
  · intro c hc
    rw [List.mem_singleton.mp hc]
    exact hself

theorem sigue_pedirSiguiente {ultimo : ℕ} {pre : List ℕ} (hgrande : H.dataBlocks < uint32Max)
    (hcola : Cola g asignaciones desde (pre ++ [ultimo]))
    (hcupo : seguro → ∃ m, g.cupo = some (m + 1)) :
    (protocolo H promesa seguro).Follows
      (fun r g' => g.Toma r.1 g' ∧ Cola g' r.2 desde (pre ++ [ultimo, r.1]))
      (pedirSiguiente ultimo asignaciones) g := by
  have hultimo : ultimo ∈ g.propios := hcola.propios ultimo (by simp)
  apply sigue_pedir hcupo
  intro b v hb hnuevo
  have hcast : u32 (b : ℤ) = b := u32_natCast_of_lt (by unfold uint32Max at hgrande; omega)
  have hself : b ∈ (g.conBloque b v hb).propios := Finset.mem_insert_self _ _
  have hsub : ∀ c ∈ g.propios, c ∈ (g.conBloque b v hb).propios :=
    fun c hc => Finset.mem_insert_of_mem hc
  rw [hcast]
  apply Protocol.Follows.bind
  apply sigue_asignarSiguiente hgrande (hsub ultimo hultimo) (.inl hself)
  apply Protocol.Follows.bind
  apply sigue_asignarSiguiente (g := (g.conBloque b v hb).conCelda ultimo b) hgrande hself
    (.inr rfl)
  have hfuera : b ∉ pre ++ [ultimo] := fun hmem => hnuevo (hcola.propios b hmem)
  refine ⟨⟨rfl, rfl, rfl, hnuevo⟩, ?_, hcola.cadena.snoc (by omega) hfuera, ?_⟩
  · intro c hc
    by_cases hcb : c = b
    · subst hcb
      simp [Cuenta.conCelda]
    · have hmem : c ∈ g.propios := (Finset.mem_insert.mp hc).resolve_left hcb
      simp only [Cuenta.conCelda, Cuenta.conBloque, Function.update_of_ne hcb]
      by_cases hcu : c = ultimo
      · subst hcu
        simp
      · simp [hcu, hcb, hcola.copia c hmem]
  · intro c hc
    rw [List.append_cons, List.mem_append, List.mem_singleton] at hc
    cases hc with
    | inl hc => exact hsub c (hcola.propios c hc)
    | inr hc =>
      rw [hc]
      exact hself

theorem sigue_primero {firstBlock : ℕ} (hgrande : H.dataBlocks < uint32Max)
    (hcola : Cola g asignaciones firstBlock xs)
    (hcupo : seguro → xs = [] → ∃ m, g.cupo = some (m + 1)) :
    (protocolo H promesa seguro).Follows
      (fun r g' => (xs = [] ∧ g.Toma r.1 g' ∧ Cola g' r.2 r.1 [r.1]) ∨
        (xs ≠ [] ∧ g' = g ∧ r = (firstBlock, asignaciones)))
      (primero firstBlock asignaciones) g := by
  rw [primero]
  split
  · next hstop =>
    have hxs : xs = [] := hcola.cadena.eq_nil_iff.mpr hstop
    refine Protocol.Follows.mono (sigue_pedirPrimero hgrande
      (fun hseguro => hcupo hseguro hxs) hcola.copia) ?_
    exact fun r g' h => .inl ⟨hxs, h⟩
  · next hstop =>
    have hxs : xs ≠ [] := fun hnil => hstop (hcola.cadena.eq_nil_iff.mp hnil)
    exact .pure (.inr ⟨hxs, rfl, rfl⟩)

end Ordenes

/-! ## Writing -/

section Editar
variable {H : OsadaHeader} {promesa : ℕ → ℕ} {seguro : Prop} {g : Cuenta H.dataBlocks}

/-- What the loop of a write keeps: with `seguro` the chain ahead and what it may still ask for
cover the rounds that are left. -/
structure EnRonda (seguro : Prop) {n : ℕ} (e : Edicion) (g : Cuenta n) (xs : List ℕ) : Prop where
  cola : Cola g e.asignaciones e.bloqueAEditar xs
  sigue : 0 < e.bytesAEscribir → xs ≠ []
  positiva : 0 ≤ e.posicionInicial
  cupo : seguro → ∃ m, g.cupo = some m ∧
    rondas e.bytesAEscribir e.posicionInicial ≤ xs.length + m

theorem sigue_escribirBloque {e : Edicion} {Q : Edicion → Cuenta H.dataBlocks → Prop}
    (hb : e.bloqueAEditar ∈ g.propios) (hpos : 0 ≤ e.posicionInicial) (h : Q e.escrita g) :
    (protocolo H promesa seguro).Follows Q (escribirBloque e) g := by
  have hlargo := e.largo_le
  have hlen : (e.resto.take e.largo.toNat).length ≤ e.largo.toNat := List.length_take_le _ _
  rw [escribirBloque]
  split
  · exact .bind (.command ⟨hb, hpos, by omega⟩ fun _ g' hg => by rwa [show g' = g from hg])
  · exact h

theorem sigue_avanzar {e : Edicion} {b : ℕ} {xs : List ℕ} (hgrande : H.dataBlocks < uint32Max)
    (hpos : 0 ≤ e.posicionInicial) (hcola : Cola g e.asignaciones e.bloqueAEditar (b :: xs))
    (hcupo : seguro → ∃ m, g.cupo = some m ∧
      rondas e.bytesAEscribir e.posicionInicial ≤ xs.length + m) :
    (protocolo H promesa seguro).Follows (fun e' g' => (∃ xs', EnRonda seguro e' g' xs') ∧
        e'.bytesAEscribir = e.bytesAEscribir ∧ e'.posicionInicial = e.posicionInicial)
      (avanzar e) g := by
  have hb : e.bloqueAEditar = b := hcola.cadena.head_eq
  have hcadena : Chain e.asignaciones uint32Max e.bloqueAEditar ([] ++ b :: xs) := hcola.cadena
  have hdespues : Chain e.asignaciones uint32Max (e.asignaciones b) xs := hcadena.after
  have hlt := g.enRango b (hcola.propios b (by simp))
  rw [avanzar, if_neg (by omega)]
  split
  · next hfin =>
    have hxs : xs = [] := hdespues.eq_nil_iff.mpr (hb ▸ hfin.1)
    subst hxs
    have hpide : seguro → ∃ m, g.cupo = some (m + 1) := by
      intro hseguro
      obtain ⟨m, hm, hle⟩ := hcupo hseguro
      rw [rondas_of_pos hfin.2, List.length_nil] at hle
      exact ⟨m - 1, by rw [hm, Nat.sub_add_cancel (by omega)]⟩
    have hultima : Cola g e.asignaciones e.bloqueAEditar ([] ++ [e.bloqueAEditar]) := by
      rw [hb] at hcola ⊢
      exact hcola
    apply Protocol.Follows.bind
    apply (sigue_pedirSiguiente hgrande hultima hpide).mono
    rintro ⟨siguiente, asignaciones⟩ g' ⟨htoma, hcola'⟩
    have hcadena' : Chain asignaciones uint32Max e.bloqueAEditar
        ([e.bloqueAEditar] ++ siguiente :: []) := hcola'.cadena
    have hnext : Chain asignaciones uint32Max siguiente [siguiente] := hcadena'.suffix
    refine ⟨⟨[siguiente], ⟨hcola'.copia, hnext, fun c hc => ?_⟩, by simp, hpos, ?_⟩, rfl, rfl⟩
    · exact hcola'.propios c (by simp [List.mem_singleton.mp hc])
    · intro hseguro
      obtain ⟨m, hm, hle⟩ := hcupo hseguro
      refine ⟨m - 1, by rw [htoma.cupo, hm]; rfl, ?_⟩
      change rondas e.bytesAEscribir e.posicionInicial ≤ 1 + (m - 1)
      rw [List.length_nil] at hle
      omega
  · next hfin =>
    refine ⟨⟨xs, ⟨hcola.copia, hb ▸ hdespues, fun c hc => ?_⟩, ?_, hpos, hcupo⟩, rfl, rfl⟩
    · exact hcola.propios c (List.mem_cons_of_mem b hc)
    · intro hpos hxs
      exact hfin ⟨hb ▸ hdespues.eq_nil_iff.mp hxs, hpos⟩

theorem sigue_ronda {e : Edicion} {xs : List ℕ} (hgrande : H.dataBlocks < uint32Max)
    (h : EnRonda seguro e g xs) (hpos : 0 < e.bytesAEscribir) :
    (protocolo H promesa seguro).Follows (fun e' g' => (∃ xs', EnRonda seguro e' g' xs') ∧
        e'.bytesAEscribir.toNat + e'.posicionInicial.toNat <
          e.bytesAEscribir.toNat + e.posicionInicial.toNat)
      (escribirBloque e >>= avanzar) g := by
  obtain ⟨hrondas, hvariante, _⟩ := e.escrita_rondas hpos
  have hne := h.sigue hpos
  rcases xs with _ | ⟨b, xs⟩
  · exact absurd rfl hne
  have hcola : Cola g e.escrita.asignaciones e.escrita.bloqueAEditar (b :: xs) := by
    rw [e.escrita_asignaciones, e.escrita_bloqueAEditar]
    exact h.cola
  have hb : e.bloqueAEditar ∈ g.propios :=
    h.cola.propios _ (by rw [h.cola.cadena.head_eq]; exact List.mem_cons_self)
  apply Protocol.Follows.bind
  apply sigue_escribirBloque hb h.positiva
  have hcupo : seguro → ∃ m, g.cupo = some m ∧
      rondas e.escrita.bytesAEscribir e.escrita.posicionInicial ≤ xs.length + m := by
    intro hseguro
    obtain ⟨m, hm, hle⟩ := h.cupo hseguro
    refine ⟨m, hm, ?_⟩
    rw [List.length_cons] at hle
    omega
  apply (sigue_avanzar hgrande e.escrita_posicionInicial hcola hcupo).mono
  rintro e' g' ⟨hronda, hbytes, hposicion⟩
  rw [hbytes, hposicion]
  exact ⟨hronda, hvariante⟩

theorem sigue_editarTodos {fuel : ℕ} {e : Edicion} {xs : List ℕ}
    (hgrande : H.dataBlocks < uint32Max) (h : EnRonda seguro e g xs)
    (hfuel : e.bytesAEscribir.toNat + e.posicionInicial.toNat ≤ fuel) :
    (protocolo H promesa seguro).Follows (fun _ _ => True) (editarTodos fuel e) g := by
  refine Protocol.Follows.mono (Protocol.Follows.whileDo (fun e g => ∃ xs, EnRonda seguro e g xs)
    (fun e => e.bytesAEscribir.toNat + e.posicionInicial.toNat) ?_ ?_ fuel e g hfuel ⟨xs, h⟩)
    fun _ _ _ => trivial
  · intro e g _ hcond
    have hpos := of_decide_eq_true hcond
    omega
  · intro e g ⟨xs, hronda⟩ hcond
    exact sigue_ronda hgrande hronda (of_decide_eq_true hcond)

/-- A write: what its check promises, with the blocks it has, covers its rounds. -/
theorem sigue_editarInterna {descriptor : OsadaFile} {n pos : ℤ} {edicion : List UInt8}
    {xs : List ℕ} (hgrande : H.dataBlocks < uint32Max)
    (hcadena : Chain g.celdas uint32Max descriptor.firstBlock xs) (hxs : ∀ b ∈ xs, b ∈ g.propios)
    (hpos : 0 ≤ pos)
    (hcupo : seguro → ∀ r : ℕ, ¬ u32 (descriptor.fileSize - pos + r * 64) < u32 n →
      max 1 (rondas n pos) ≤ xs.length + g.cupo.getD (promesa r)) :
    (protocolo H promesa seguro).Follows (fun _ _ => True)
      (editarInterna descriptor n pos edicion) g := by
  rw [editarInterna]
  refine .bind (.command trivial fun libres g' hg => ?_)
  rw [hg.2]
  split
  · trivial
  next hcheck =>
  have hpide := fun hseguro => hcupo hseguro libres hcheck
  refine .bind (.command trivial fun asignaciones g' hlee => ?_)
  obtain ⟨hcopia, hg⟩ := hlee
  rw [hg]
  have hcola : Cola (g.conPromesa (promesa libres)) asignaciones descriptor.firstBlock xs :=
    ⟨hcopia, hcadena.congr fun b hb => hcopia b (hxs b hb), hxs⟩
  apply Protocol.Follows.bind
  have hprimero : seguro → xs = [] → ∃ m, (g.conPromesa (promesa libres)).cupo = some (m + 1) := by
    intro hseguro hnil
    have hle := hpide hseguro
    rw [hnil, List.length_nil] at hle
    refine ⟨g.cupo.getD (promesa libres) - 1, ?_⟩
    rw [Cuenta.conPromesa, Nat.sub_add_cancel (by omega)]
  apply (sigue_primero hgrande hcola hprimero).mono
  rintro ⟨bloque, asignaciones'⟩ g' hresto
  apply Protocol.Follows.bind
  suffices hronda : ∃ ys, EnRonda seguro ⟨bloque, n, pos, 0, edicion, asignaciones'⟩ g' ys by
    obtain ⟨ys, hys⟩ := hronda
    exact (sigue_editarTodos hgrande hys (le_refl _)).mono fun _ _ _ => trivial
  rcases hresto with ⟨hnil, htoma, hcola'⟩ | ⟨hne, hg', hr⟩
  · refine ⟨[bloque], hcola', by simp, hpos, fun hseguro => ?_⟩
    have hle := hpide hseguro
    rw [hnil, List.length_nil] at hle
    refine ⟨g.cupo.getD (promesa libres) - 1, by rw [htoma.cupo]; rfl, ?_⟩
    rw [List.length_singleton]
    change rondas n pos ≤ _
    omega
  · obtain ⟨rfl, rfl⟩ := Prod.mk.inj hr
    subst hg'
    refine ⟨xs, hcola, fun _ => hne, hpos, fun hseguro => ?_⟩
    have hle := hpide hseguro
    refine ⟨_, rfl, ?_⟩
    change rondas n pos ≤ _
    omega

theorem sigue_reemplazar {posicion : ℕ} {descriptor : OsadaFile}
    {Q : ℤ → Cuenta H.dataBlocks → Prop} (h : ∀ r, Q r g) :
    (protocolo H promesa seguro).Follows Q (reemplazar posicion descriptor) g :=
  .command trivial fun r g' hg => by
    rw [show g' = g from hg]
    exact h r

theorem sigue_editar {posicion : ℕ} {descriptor : OsadaFile} {n pos : ℤ} {archivo : List UInt8}
    {xs : List ℕ} (hgrande : H.dataBlocks < uint32Max)
    (hcadena : Chain g.celdas uint32Max descriptor.firstBlock xs) (hxs : ∀ b ∈ xs, b ∈ g.propios)
    (hpos : 0 ≤ pos)
    (hcupo : seguro → ∀ r : ℕ, ¬ u32 (descriptor.fileSize - pos + r * 64) < u32 n →
      max 1 (rondas n pos) ≤ xs.length + g.cupo.getD (promesa r)) :
    (protocolo H promesa seguro).Follows (fun _ _ => True)
      (editar posicion descriptor pos n archivo) g := by
  apply Protocol.Follows.bind
  apply (sigue_editarInterna hgrande hcadena hxs hpos hcupo).mono
  intro r g' _
  split
  · trivial
  · apply Protocol.Follows.bind
    exact sigue_reemplazar fun _ => trivial

end Editar

/-! ## Truncating -/

section Truncar
variable {H : OsadaHeader} {promesa : ℕ → ℕ} {seguro : Prop} {g : Cuenta H.dataBlocks}
  {asignaciones : ℕ → ℕ} {desde : ℕ} {xs pre post : List ℕ}

/-- What the loop of a truncation keeps; `k` are the blocks that it will have gone through. The
blocks that will be left over were there before. -/
structure EnCorte (seguro : Prop) {n : ℕ} (firstBlock k : ℕ) (t : Truncado) (g : Cuenta n)
    (pre post : List ℕ) : Prop where
  cola : Cola g t.asignaciones firstBlock (pre ++ post)
  siguiente : Chain t.asignaciones uint32Max t.siguienteBloque post
  anterior : pre ≠ [] → ∃ l, pre = l ++ [t.bloqueAEditar]
  sigue : 0 < t.inicio → pre ++ post ≠ []
  cupo : seguro → ∃ m, g.cupo = some m ∧ bloquesPara t.inicio.toNat ≤ post.length + m
  largo : pre.length + bloquesPara t.inicio.toNat = k
  viejos : ∀ b ∈ post.drop (bloquesPara t.inicio.toNat), b ∉ g.tomados

theorem sigue_truncarUno_resto {t : Truncado} {firstBlock k b : ℕ} {rest : List ℕ}
    (hpos : 0 < t.inicio) (hcola : Cola g asignaciones firstBlock (pre ++ b :: rest))
    (hcupo : seguro → ∃ m, g.cupo = some m ∧ bloquesPara t.inicio.toNat ≤ rest.length + 1 + m)
    (hlargo : pre.length + bloquesPara t.inicio.toNat = k)
    (hviejos : ∀ c ∈ (b :: rest).drop (bloquesPara t.inicio.toNat), c ∉ g.tomados) :
    (∃ pre' post', EnCorte seguro firstBlock k
      ⟨b, asignaciones b, t.inicio - 64, asignaciones⟩ g pre' post') ∧
      (t.inicio - 64).toNat < t.inicio.toNat := by
  have hpara := bloquesPara_pos hpos
  refine ⟨⟨pre ++ [b], rest, ?_, hcola.cadena.after, fun _ => ⟨pre, rfl⟩, by simp, ?_, ?_, ?_⟩,
    ?_⟩
  · rw [← List.append_cons]
    exact hcola
  · intro hseguro
    obtain ⟨m, hm, hle⟩ := hcupo hseguro
    refine ⟨m, hm, ?_⟩
    change bloquesPara (t.inicio - 64).toNat ≤ _
    omega
  · rw [List.length_append, List.length_singleton]
    change pre.length + 1 + bloquesPara (t.inicio - 64).toNat = k
    omega
  · rw [hpara, List.drop_succ_cons] at hviejos
    exact hviejos
  · omega

theorem sigue_truncarUno {t : Truncado} {firstBlock k : ℕ} (hgrande : H.dataBlocks < uint32Max)
    (h : EnCorte seguro firstBlock k t g pre post) (hpos : 0 < t.inicio) :
    (protocolo H promesa seguro).Follows (fun t' g' =>
        (∃ pre' post', EnCorte seguro firstBlock k t' g' pre' post') ∧
          t'.inicio.toNat < t.inicio.toNat)
      (truncarUno t) g := by
  have hpara := bloquesPara_pos hpos
  rw [truncarUno]
  rcases post with _ | ⟨b, rest⟩
  · -- the chain is at its end
    obtain ⟨l, hl⟩ := h.anterior (by simpa using h.sigue hpos)
    have hcola := h.cola
    rw [List.append_nil, hl] at hcola
    rw [if_pos (h.siguiente.eq_nil_iff.mp rfl)]
    have hpide : seguro → ∃ m, g.cupo = some (m + 1) := by
      intro hseguro
      obtain ⟨m, hm, hle⟩ := h.cupo hseguro
      rw [List.length_nil] at hle
      exact ⟨m - 1, by rw [hm, Nat.sub_add_cancel (by omega)]⟩
    apply Protocol.Follows.bind
    apply (sigue_pedirSiguiente hgrande hcola hpide).mono
    rintro ⟨b, asignaciones⟩ g' ⟨htoma, hcola'⟩
    simp only at htoma hcola'
    rw [List.append_cons, ← hl] at hcola'
    refine sigue_truncarUno_resto hpos hcola' (fun hseguro => ?_) h.largo ?_
    · obtain ⟨m, hm, hle⟩ := h.cupo hseguro
      rw [List.length_nil] at hle
      refine ⟨m - 1, by rw [htoma.cupo, hm]; rfl, ?_⟩
      rw [List.length_nil]
      omega
    · rw [hpara, List.drop_succ_cons, List.drop_nil]
      intro c hc
      exact absurd hc List.not_mem_nil
  · have hb : b ∈ g.propios := h.cola.propios b (by simp)
    have hne : t.siguienteBloque ≠ uint32Max := by
      rw [h.siguiente.head_eq]
      have hlt := g.enRango b hb
      omega
    rw [if_neg hne, h.siguiente.head_eq]
    exact sigue_truncarUno_resto hpos h.cola h.cupo h.largo h.viejos

theorem sigue_truncarTodos {t : Truncado} {firstBlock k fuel : ℕ}
    (hgrande : H.dataBlocks < uint32Max) (h : EnCorte seguro firstBlock k t g pre post)
    (hfuel : t.inicio.toNat ≤ fuel) :
    (protocolo H promesa seguro).Follows (fun t' g' =>
        (∃ pre' post', EnCorte seguro firstBlock k t' g' pre' post') ∧ t'.inicio ≤ 0)
      (truncarTodos fuel t) g := by
  refine Protocol.Follows.mono (Protocol.Follows.whileDo
    (fun t g => ∃ pre post, EnCorte seguro firstBlock k t g pre post)
    (fun t => t.inicio.toNat) ?_ ?_ fuel t g hfuel ⟨pre, post, h⟩) ?_
  · intro t g _ hcond
    have hpos := of_decide_eq_true hcond
    omega
  · intro t g ⟨pre, post, ht⟩ hcond
    exact sigue_truncarUno hgrande ht (of_decide_eq_true hcond)
  · intro t g ⟨ht, hcond⟩
    exact ⟨ht, not_lt.mp (of_decide_eq_false hcond)⟩

theorem sigue_liberarTodos :
    ∀ {xs : List ℕ} {desde fuel : ℕ} {g : Cuenta H.dataBlocks},
      Chain asignaciones uint32Max desde xs → (∀ b ∈ xs, b ∈ g.propios ∧ b ∉ g.tomados) →
      xs.length ≤ fuel →
      (protocolo H promesa seguro).Follows (fun _ g' => g'.celdas = g.celdas ∧
          ∀ b, b ∈ g'.propios ↔ b ∈ g.propios ∧ b ∉ xs)
        (.whileDo (fun bloque => bloque ≠ uint32Max) (liberarUno asignaciones)
          fuel desde) g := by
  intro xs
  induction xs with
  | nil =>
    intro desde fuel g hcadena _ _
    have hfin : desde = uint32Max := hcadena.eq_nil_iff.mp rfl
    subst hfin
    cases fuel with
    | zero => exact ⟨rfl, by simp⟩
    | succ fuel => exact ⟨rfl, by simp⟩
  | cons b xs ih =>
    intro desde fuel g hcadena hxs hfuel
    obtain ⟨hb, hviejo⟩ := hxs b List.mem_cons_self
    have hdesde : desde = b := hcadena.head_eq
    subst hdesde
    have hnodup := List.nodup_cons.mp hcadena.nodup
    rcases fuel with _ | fuel
    · simp at hfuel
    rw [Prog.whileDo, if_pos]
    swap
    · cases hcadena with
      | cons hne _ => simpa using hne
    refine .bind (.bind (.command ⟨rfl, hb, hviejo⟩ fun _ g' hg => ?_))
    rw [show g' = g.sin desde from hg]
    have hresto : Chain asignaciones uint32Max desde ([] ++ desde :: xs) := hcadena
    have hpropios : ∀ c ∈ xs, c ∈ (g.sin desde).propios ∧ c ∉ (g.sin desde).tomados := by
      intro c hc
      obtain ⟨hmem, hnot⟩ := hxs c (List.mem_cons_of_mem desde hc)
      have hne : c ≠ desde := fun he => hnodup.1 (he ▸ hc)
      exact ⟨Finset.mem_erase.mpr ⟨hne, hmem⟩, hnot⟩
    refine (ih hresto.after hpropios (by simpa using hfuel)).mono ?_
    rintro _ g' ⟨hceldas, hmem⟩
    refine ⟨hceldas, fun c => ?_⟩
    rw [hmem c, Cuenta.sin, Finset.mem_erase, List.mem_cons]
    tauto

theorem sigue_liberar (hgrande : H.dataBlocks < uint32Max)
    (hcadena : Chain asignaciones uint32Max desde xs)
    (hxs : ∀ b ∈ xs, b ∈ g.propios ∧ b ∉ g.tomados) :
    (protocolo H promesa seguro).Follows (fun _ g' => g'.celdas = g.celdas ∧
        ∀ b, b ∈ g'.propios ↔ b ∈ g.propios ∧ b ∉ xs)
      (liberar asignaciones desde) g := by
  apply sigue_liberarTodos hcadena hxs
  have hsub : xs.toFinset ⊆ Finset.range H.dataBlocks := by
    intro b hb
    exact Finset.mem_range.mpr (g.enRango b (hxs b (List.mem_toFinset.mp hb)).1)
  have hcard := Finset.card_le_card hsub
  rw [List.toFinset_card_of_nodup hcadena.nodup, Finset.card_range] at hcard
  omega

/-- What a truncation leaves: a chain of `k` blocks of its own. -/
structure Cortada {n : ℕ} (g : Cuenta n) (firstBlock k : ℕ) (xs : List ℕ) : Prop where
  cadena : Chain g.celdas uint32Max firstBlock xs
  propios : ∀ b ∈ xs, b ∈ g.propios
  largo : xs.length = k

theorem sigue_cortar {t : Truncado} {firstBlock k : ℕ} (hgrande : H.dataBlocks < uint32Max)
    (h : EnCorte seguro firstBlock k t g pre post) (hfin : t.inicio ≤ 0) :
    (protocolo H promesa seguro).Follows (fun r g' => ∃ ys, Cortada g' r k ys)
      (cortar firstBlock t) g := by
  have hcero : bloquesPara t.inicio.toNat = 0 := by
    rw [Int.toNat_of_nonpos hfin]
    rfl
  have hviejos := h.viejos
  rw [hcero, List.drop_zero] at hviejos
  have hlargo := h.largo
  rw [hcero, Nat.add_zero] at hlargo
  have hnodup := h.cola.cadena.nodup
  have hpost : ∀ b ∈ post, b ∈ g.propios ∧ b ∉ g.tomados :=
    fun b hb => ⟨h.cola.propios b (List.mem_append_right pre hb), hviejos b hb⟩
  rw [cortar]
  split
  · next hcorta =>
    have hpre : pre ≠ [] := by
      intro hnil
      have hcadena := h.cola.cadena
      rw [hnil, List.nil_append] at hcadena
      exact hcorta (h.siguiente.start_unique hcadena)
    obtain ⟨l, hl⟩ := h.anterior hpre
    have hultimo : t.bloqueAEditar ∈ pre := by
      rw [hl]
      simp
    have hfuera : t.bloqueAEditar ∉ post := fun hmem =>
      List.disjoint_of_nodup_append hnodup hultimo hmem
    have hcola := h.cola
    rw [hl, List.append_assoc, List.singleton_append] at hcola
    apply Protocol.Follows.bind
    apply Protocol.Follows.bind
    apply sigue_asignarSiguiente hgrande (h.cola.propios _ (List.mem_append_left post hultimo))
      (.inr rfl)
    change (protocolo H promesa seguro).Follows _ (_ >>= fun _ => pure firstBlock) _
    apply Protocol.Follows.bind
    apply (sigue_liberar hgrande (g := g.conCelda t.bloqueAEditar uint32Max)
      (h.siguiente.update hfuera uint32Max) hpost).mono
    rintro _ g' ⟨hceldas, hmem⟩
    have hpropios : ∀ b ∈ pre, b ∈ g'.propios := by
      intro b hb
      refine (hmem b).mpr ⟨h.cola.propios b (List.mem_append_left post hb), fun hb' => ?_⟩
      exact List.disjoint_of_nodup_append hnodup hb hb'
    refine ⟨pre, ?_, hpropios, hlargo⟩
    have hcadena := hcola.cadena.cut
    rw [← hl] at hcadena
    apply hcadena.congr
    intro b hb
    have hcopia := h.cola.copia b (h.cola.propios b (List.mem_append_left post hb))
    rw [hceldas, Cuenta.conCelda]
    by_cases hbu : b = t.bloqueAEditar
    · simp [hbu]
    · simp [hbu, hcopia]
  · next hcorta =>
    have hpre : pre = [] := by
      have hlista := h.cola.cadena.unique (not_not.mp hcorta ▸ h.siguiente)
      simpa using hlista
    subst hpre
    apply Protocol.Follows.bind
    apply Protocol.Follows.bind
    apply (sigue_liberar hgrande h.siguiente hpost).mono
    rintro _ g' ⟨hceldas, hmem⟩
    exact ⟨[], .nil, by simp, hlargo⟩

/-- The result of a truncation whose check did not turn it down. -/
def Truncada {n : ℕ} (descriptor : OsadaFile) (k : ℕ) (r : ℤ × OsadaFile) (g : Cuenta n) : Prop :=
  r.1 = 1 ∧ r.2 = { descriptor with firstBlock := r.2.firstBlock } ∧
    ∃ xs, Cortada g r.2.firstBlock k xs

theorem sigue_truncarTodos_cortar {descriptor : OsadaFile} {inicio : ℤ} {siguiente : ℕ}
    (hgrande : H.dataBlocks < uint32Max)
    (h : EnCorte seguro siguiente (bloquesPara inicio.toNat)
      ⟨siguiente, siguiente, inicio, asignaciones⟩ g [] post) :
    (protocolo H promesa seguro).Follows
      (Truncada descriptor (bloquesPara inicio.toNat))
      (truncarTodos inicio.toNat ⟨siguiente, siguiente, inicio, asignaciones⟩ >>= fun t =>
        cortar siguiente t >>= fun firstBlock =>
          pure (1, { descriptor with firstBlock := firstBlock })) g := by
  apply Protocol.Follows.bind
  apply (sigue_truncarTodos hgrande h (le_refl _)).mono
  rintro t g₁ ⟨⟨pre, post, ht⟩, hfin⟩
  apply Protocol.Follows.bind
  apply (sigue_cortar hgrande ht hfin).mono
  intro firstBlock g₂ hcortada
  exact ⟨rfl, rfl, hcortada⟩

theorem sigue_hasta {descriptor : OsadaFile} {inicio : ℤ} (hgrande : H.dataBlocks < uint32Max)
    (hcadena : Chain g.celdas uint32Max descriptor.firstBlock xs)
    (hxs : ∀ b ∈ xs, b ∈ g.propios ∧ b ∉ g.tomados) (hinicio : 0 ≤ inicio)
    (hcupo : seguro → ∃ m, g.cupo = some m ∧ bloquesDeTruncado inicio ≤ xs.length + m) :
    (protocolo H promesa seguro).Follows (Truncada descriptor (bloquesPara inicio.toNat))
      (hasta descriptor inicio) g := by
  rw [hasta]
  refine .bind (.command trivial fun asignaciones g' hlee => ?_)
  obtain ⟨hcopia, hg⟩ := hlee
  rw [hg]
  have hcola : Cola g asignaciones descriptor.firstBlock xs :=
    ⟨hcopia, hcadena.congr fun b hb => hcopia b (hxs b hb).1, fun b hb => (hxs b hb).1⟩
  unfold bloquesDeTruncado at hcupo
  split
  · next hne =>
    rw [if_pos hne] at hcupo
    apply Protocol.Follows.bind
    have hprimero : seguro → xs = [] → ∃ m, g.cupo = some (m + 1) := by
      intro hseguro hnil
      obtain ⟨m, hm, hle⟩ := hcupo hseguro
      rw [hnil, List.length_nil] at hle
      exact ⟨m - 1, by rw [hm, Nat.sub_add_cancel (by omega)]⟩
    apply (sigue_primero hgrande hcola hprimero).mono
    rintro ⟨siguiente, asignaciones'⟩ g' hprim
    rcases hprim with ⟨hnil, htoma, hcola'⟩ | ⟨hno, hg', hr⟩
    · refine sigue_truncarTodos_cortar hgrande (show EnCorte _ _ _ _ g' [] [siguiente] from
        ⟨hcola', hcola'.cadena, by simp, by simp, fun hseguro => ?_, by simp, ?_⟩)
      · obtain ⟨m, hm, hle⟩ := hcupo hseguro
        rw [hnil, List.length_nil] at hle
        refine ⟨m - 1, by rw [htoma.cupo, hm]; rfl, ?_⟩
        rw [List.length_singleton]
        change bloquesPara inicio.toNat ≤ _
        omega
      · -- the new block is one of those the loop goes through
        change ∀ b ∈ List.drop (bloquesPara inicio.toNat) [siguiente], _
        rw [bloquesPara_pos (show 0 < inicio by omega), List.drop_succ_cons, List.drop_nil]
        intro b hb
        exact absurd hb List.not_mem_nil
    · obtain ⟨rfl, rfl⟩ := Prod.mk.inj hr
      subst hg'
      refine sigue_truncarTodos_cortar hgrande (show EnCorte _ _ _ _ g' [] xs from
        ⟨hcola, hcola.cadena, by simp, fun _ => hno, fun hseguro => ?_, by simp, ?_⟩)
      · obtain ⟨m, hm, hle⟩ := hcupo hseguro
        refine ⟨m, hm, ?_⟩
        change bloquesPara inicio.toNat ≤ _
        omega
      · exact fun b hb => (hxs b (List.mem_of_mem_drop hb)).2
  · next hcero =>
    have hcero' : inicio = 0 := not_not.mp hcero
    apply Protocol.Follows.bind
    apply Protocol.Follows.pure
    refine sigue_truncarTodos_cortar hgrande (show EnCorte _ _ _ _ g [] xs from
      ⟨hcola, hcola.cadena, by simp, ?_, fun hseguro => ?_, by simp, ?_⟩)
    · intro hpos
      change 0 < inicio at hpos
      omega
    · obtain ⟨m, hm, _⟩ := hcupo hseguro
      refine ⟨m, hm, ?_⟩
      change bloquesPara inicio.toNat ≤ _
      rw [hcero']
      exact Nat.zero_le _
    · exact fun b hb => (hxs b (List.mem_of_mem_drop hb)).2

theorem sigue_completar {posicion k : ℕ} {descriptor : OsadaFile} {n : ℤ}
    (hgrande : H.dataBlocks < uint32Max) (hn : 0 ≤ n ∧ n < 2147483648)
    (hchico : descriptor.fileSize < 2147483648)
    (h : Cortada g descriptor.firstBlock k xs) (hk : k = bloquesPara n.toNat) :
    (protocolo H promesa seguro).Follows (fun _ _ => True)
      (completar posicion descriptor n) g := by
  have hu : (u32 n : ℤ) = n := u32_of_lt hn.1 (by omega)
  rw [completar]
  split
  · next hcrece =>
    have hlargo : i32 (n - descriptor.fileSize) = n - descriptor.fileSize :=
      i32_of_range (by omega) (by omega)
    have hpos : i32 (descriptor.fileSize : ℤ) = descriptor.fileSize :=
      i32_natCast_of_lt hchico
    apply Protocol.Follows.bind
    refine Protocol.Follows.mono (sigue_editarInterna hgrande h.cadena h.propios
      (by omega) fun hseguro r _ => ?_) fun r g' _ => sigue_reemplazar fun _ => trivial
    -- the blocks are there: nothing is asked for, whatever the check says
    have hle : max 1 (rondas (n - descriptor.fileSize) descriptor.fileSize) ≤ k := by
      rw [hk, rondas_of_pos (by omega)]
      unfold bloquesPara
      omega
    rw [hlargo, hpos, h.largo]
    exact le_trans hle (Nat.le_add_right k _)
  · apply Protocol.Follows.bind
    exact sigue_reemplazar fun _ => trivial

/-- A check that counts no more than is free turns down what does not fit in an int. -/
theorem i32_of_check {n : ℤ} {size libres : ℕ} (hn : -2147483648 ≤ n ∧ n < 2147483648)
    (hsize : size + libres * 64 < 2147483648) (hcheck : ¬ u32 (size + libres * 64) < u32 n) :
    0 ≤ n := by
  by_contra hneg
  have hle : u32 ((size : ℤ) + (libres : ℤ) * 64) = size + libres * 64 := by
    rw [show (size : ℤ) + (libres : ℤ) * 64 = ((size + libres * 64 : ℕ) : ℤ) by push_cast; rfl]
    exact u32_natCast_of_lt (by omega)
  have hu : (u32 n : ℤ) = n + 4294967296 := by
    unfold u32
    omega
  omega

theorem sigue_truncar {posicion : ℕ} {descriptor : OsadaFile} {n : ℤ}
    (hgrande : H.dataBlocks * 64 < 2147483648) (hn : -2147483648 ≤ n ∧ n < 2147483648)
    (htamanio : descriptor.fileSize ≤ 64 * xs.length)
    (hcadena : Chain g.celdas uint32Max descriptor.firstBlock xs)
    (hxs : ∀ b ∈ xs, b ∈ g.propios ∧ b ∉ g.tomados)
    (hcupo : seguro → ∀ r : ℕ, ¬ u32 (descriptor.fileSize + r * 64) < u32 n →
      bloquesDeTruncado n ≤ xs.length + g.cupo.getD (promesa r)) :
    (protocolo H promesa seguro).Follows (fun _ _ => True) (truncar posicion descriptor n) g := by
  have hmax : H.dataBlocks < uint32Max := by
    unfold uint32Max
    omega
  have hlargo : xs.length ≤ g.propios.card := by
    rw [← List.toFinset_card_of_nodup hcadena.nodup]
    exact Finset.card_le_card fun b hb => (hxs b (List.mem_toFinset.mp hb)).1
  have hinicio : i32 (u32 n : ℤ) = n := by rw [i32_u32, i32_of_range hn.1 hn.2]
  apply Protocol.Follows.bind
  rw [truncarInterna]
  refine .bind (.command trivial fun (libres : ℕ) g' hg => ?_)
  have hlibres : libres + g.propios.card ≤ H.dataBlocks := hg.1
  rw [hg.2]
  split
  · trivial
  next hcheck =>
  have hpos : 0 ≤ n := i32_of_check hn (by omega) hcheck
  rw [hinicio]
  refine Protocol.Follows.mono (sigue_hasta (g := g.conPromesa (promesa libres)) hmax hcadena
    hxs hpos fun hseguro => ⟨_, rfl, hcupo hseguro libres hcheck⟩) ?_
  rintro r g' ⟨hr, hdescriptor, ys, hcortada⟩
  rw [if_pos hr]
  apply Protocol.Follows.bind
  have hsize : r.2.fileSize < 2147483648 := by
    rw [hdescriptor]
    change descriptor.fileSize < _
    omega
  exact (sigue_completar hmax ⟨hpos, hn.2⟩ hsize hcortada rfl).mono fun _ _ _ => trivial

end Truncar

end TpSo.Osada.Hilado
