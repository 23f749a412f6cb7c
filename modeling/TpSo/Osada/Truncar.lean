import TpSo.Osada.Editar

/-!
# Truncating a file

`truncarArchivoInterna` walks the chain for as many blocks as the new size needs, taking new
ones at its end, cuts the chain there and frees what is left of it.
-/

namespace TpSo.Osada

open Function (update)

/-- The variables of the loop. `bloqueAEditar_bq` has no value before the first round, and
is not read before it either: until then `suguiente_bloque_bq` is the first block. -/
structure Truncado where
  bloqueAEditar : ℕ
  siguienteBloque : ℕ
  inicio : ℤ
  asignaciones : ℕ → ℕ

def truncarBloque (t : Truncado) : Op Pokedex Truncado := do
  let (siguiente, asignaciones) ←
    if t.siguienteBloque = uint32Max then pedirBloqueSiguiente t.bloqueAEditar t.asignaciones
    else pure (t.siguienteBloque, t.asignaciones)
  pure { bloqueAEditar := siguiente, siguienteBloque := asignaciones siguiente,
         inicio := t.inicio - 64, asignaciones := asignaciones }

def truncarBloques (fuel : ℕ) (t : Truncado) : Op Pokedex Truncado :=
  Op.whileDo (fun t => 0 < t.inicio) truncarBloque fuel t

/-- The end of the function: the chain is cut and the rest of it freed. The result is the
new first block. -/
def cortarCadena (firstBlock : ℕ) (t : Truncado) : Op Pokedex ℕ := do
  let (firstBlock, asignaciones) ←
    if t.siguienteBloque ≠ firstBlock then do
      let asignaciones ← asignarSiguienteBloque t.bloqueAEditar uint32Max t.asignaciones
      pure (firstBlock, asignaciones)
    else pure (uint32Max, t.asignaciones)
  let _ ← liberarBloques asignaciones t.siguienteBloque
  pure firstBlock

def truncarHasta (descriptor : OsadaFile) (inicio : ℤ) : Op Pokedex (ℤ × OsadaFile) := do
  let d ← Op.get Pokedex.disco
  let (siguiente, asignaciones) ←
    if inicio ≠ 0 then primerBloque descriptor.firstBlock d.asignaciones
    else pure (descriptor.firstBlock, d.asignaciones)
  let t ← truncarBloques inicio.toNat
    { bloqueAEditar := siguiente, siguienteBloque := siguiente, inicio := inicio,
      asignaciones := asignaciones }
  let firstBlock ← cortarCadena siguiente t
  pure (1, { descriptor with firstBlock := firstBlock })

def truncarArchivoInterna (descriptor : OsadaFile) (offset : ℕ) : Op Pokedex (ℤ × OsadaFile) := do
  let d ← Op.get Pokedex.disco
  if u32 (descriptor.fileSize + obtenerBloquesLibres d * 64) < offset then
    pure (noHayEspacio, descriptor)
  else truncarHasta descriptor (i32 offset)

/-- `rellenarConEspacios`: the bytes from the old size to the new one, set to zero. -/
def rellenarConEspacios (descriptor : OsadaFile) (bytesATruncar : ℤ) :
    Op Pokedex (ℤ × OsadaFile) :=
  let largo := i32 (bytesATruncar - descriptor.fileSize)
  editarArchivoInterna descriptor largo (i32 descriptor.fileSize) (List.replicate largo.toNat 0)

section Rondas
variable {s : Pokedex} {raiz : ℕ → ℕ} {cad : ℕ → List ℕ} {p : ℕ}

/-- The loop variables at a point of the chain `pre ++ post`. -/
structure Truncado.En (t : Truncado) (s : Pokedex) (pre post : List ℕ) : Prop where
  asignaciones : t.asignaciones = s.disco.asignaciones
  siguiente : Chain s.disco.asignaciones uint32Max t.siguienteBloque post
  anterior : pre ≠ [] → ∃ l, pre = l ++ [t.bloqueAEditar]

theorem returns_truncarBloque {t : Truncado} {pre post : List ℕ} (h : Ocupacion s.disco raiz cad)
    (hp : cad p = pre ++ post) (ht : t.En s pre post) (hpp : pre ++ post ≠ [])
    (hl : 0 < post.length + libres s.disco) :
    Op.Returns (truncarBloque t) s fun t' s' => ∃ nuevos b post', Crecio raiz cad p nuevos s s' ∧
      post ++ nuevos = b :: post' ∧ t'.En s' (pre ++ [b]) post' ∧ t'.inicio = t.inicio - 64 ∧
      nuevos.length = 1 - post.length := by
  rw [truncarBloque, Op.Returns]
  rcases post with _ | ⟨b, post⟩
  · -- the chain is at its end
    have hne : pre ≠ [] := by simpa using hpp
    obtain ⟨l, hl'⟩ := ht.anterior hne
    have hstop : t.siguienteBloque = uint32Max := ht.siguiente.eq_nil_iff.mp rfl
    obtain ⟨⟨b, asig⟩, s', hrun, hasig, hcre⟩ := returns_pedirBloqueSiguiente h
      (by rw [hp, List.append_nil, hl']) (by simpa using hl)
    simp only at hasig hcre
    have hc := hcre.ocupacion.fat.chain p
    rw [Function.update_self, hp, List.append_nil] at hc
    rw [if_pos hstop, ht.asignaciones, Op.bind_some hrun, hasig]
    refine ⟨_, s', rfl, [b], b, [], hcre, rfl, ⟨rfl, hc.after, fun _ => ⟨pre, rfl⟩⟩, rfl, rfl⟩
  · have hmem : b ∈ cad p := by simp [hp]
    have hhead : t.siguienteBloque = b := ht.siguiente.head_eq
    have hne : t.siguienteBloque ≠ uint32Max := hhead ▸ h.fat.ne_stop hmem
    have hc : Chain s.disco.asignaciones uint32Max t.siguienteBloque ([] ++ b :: post) :=
      ht.siguiente
    rw [if_neg hne, Op.pure_bind', hhead, ht.asignaciones]
    refine ⟨_, s, rfl, [], b, post, Crecio.refl h p, by rw [List.append_nil],
      ⟨rfl, hc.after, fun _ => ⟨pre, rfl⟩⟩, rfl, ?_⟩
    simp

theorem truncarBloques_zero {fuel : ℕ} {t : Truncado} (hn : t.inicio ≤ 0) :
    truncarBloques fuel t s = (some t, s) := by
  have hcond : (decide (0 < t.inicio)) = false := decide_eq_false (not_lt.mpr hn)
  cases fuel <;> simp [truncarBloques, Op.whileDo, hcond]

theorem truncarBloques_succ {fuel : ℕ} {t : Truncado} (hn : 0 < t.inicio) :
    truncarBloques (fuel + 1) t = truncarBloque t >>= truncarBloques fuel := by
  have hcond : (decide (0 < t.inicio)) = true := decide_eq_true hn
  rw [truncarBloques, Op.whileDo, if_pos hcond]
  rfl

theorem bloquesPara_pos {n : ℤ} (hn : 0 < n) :
    bloquesPara n.toNat = bloquesPara (n - 64).toNat + 1 := by
  unfold bloquesPara
  omega

/-- The loop stops `bloquesPara inicio` blocks further on. -/
theorem returns_truncarBloques : ∀ (fuel : ℕ) {s : Pokedex} {cad : ℕ → List ℕ}
    {t : Truncado} {pre post : List ℕ}, Ocupacion s.disco raiz cad → cad p = pre ++ post →
    t.En s pre post → (0 < t.inicio → pre ++ post ≠ []) →
    bloquesPara t.inicio.toNat ≤ post.length + libres s.disco → t.inicio.toNat ≤ fuel →
    Op.Returns (truncarBloques fuel t) s fun t' s' => ∃ nuevos pre' post',
      Crecio raiz cad p nuevos s s' ∧ cad p ++ nuevos = pre' ++ post' ∧ t'.En s' pre' post' ∧
      pre'.length = pre.length + bloquesPara t.inicio.toNat ∧
      nuevos.length = bloquesPara t.inicio.toNat - post.length ∧
      (t.inicio ≤ 0 → t' = t) := by
  intro fuel
  induction fuel with
  | zero =>
    intro s cad t pre post h hp ht _ _ hfuel
    have hn : t.inicio ≤ 0 := by omega
    have hcero : t.inicio.toNat = 0 := by omega
    refine ⟨t, s, truncarBloques_zero hn, [], pre, post, Crecio.refl h p, by rw [List.append_nil, hp],
      ht, ?_, ?_, fun _ => rfl⟩ <;> simp [hcero, bloquesPara]
  | succ fuel ih =>
    intro s cad t pre post h hp ht hpp hneed hfuel
    rcases le_or_gt t.inicio 0 with hn | hn
    · have hcero : t.inicio.toNat = 0 := by omega
      refine ⟨t, s, truncarBloques_zero hn, [], pre, post, Crecio.refl h p,
        by rw [List.append_nil, hp], ht, ?_, ?_, fun _ => rfl⟩ <;> simp [hcero, bloquesPara]
    · have hb := bloquesPara_pos hn
      obtain ⟨t₁, s₁, hrun, nuevos, b, post₁, hcre, hbp, ht₁, hini, hlen⟩ :=
        returns_truncarBloque h hp ht (hpp hn) (by omega)
      have hcad : update cad p (cad p ++ nuevos) p = (pre ++ [b]) ++ post₁ := by
        rw [Function.update_self, hp, List.append_assoc, hbp]
        simp
      have htam := congrArg List.length hbp
      rw [List.length_append, List.length_cons] at htam
      have hlib := hcre.libres_eq
      obtain ⟨t', s', hrun', nuevos', pre', post', hcre', hcad', ht', hpre', hlen', _⟩ :=
        ih hcre.ocupacion hcad ht₁ (fun _ => by simp) (by rw [hini]; omega) (by omega)
      rw [Function.update_self, List.append_assoc] at hcad'
      refine ⟨t', s', ?_, nuevos ++ nuevos', pre', post', hcre.trans hcre', hcad', ht', ?_, ?_,
        fun hle => absurd hn (not_lt.mpr hle)⟩
      · rw [truncarBloques_succ hn, Op.bind_some hrun, hrun']
      · rw [hpre', hini, hb, List.length_append, List.length_singleton]
        omega
      · rw [List.length_append, hlen', hini, hlen]
        omega

theorem Ocupacion.partir (h : Ocupacion s.disco raiz cad) {q c : ℕ} {pre post : List ℕ}
    (hq : cad q = []) (hqp : q ≠ p) (hp : cad p = pre ++ c :: post) :
    Ocupacion (s.escribir (.asignacion c uint32Max)).disco
      (update raiz q (s.disco.asignaciones c))
      (update (update cad p (pre ++ [c])) q post) := by
  have hlt : c < s.disco.header.dataBlocks := h.enRango p c (by simp [hp])
  have hasig := aplicar_asignacion_asignaciones s.disco hlt uint32Max
  have hmem : ∀ b, (∃ i, b ∈ update (update cad p (pre ++ [c])) q post i) ↔ ∃ i, b ∈ cad i := by
    intro b
    constructor
    · rintro ⟨i, hb⟩
      by_cases hiq : i = q
      · subst hiq
        rw [Function.update_self] at hb
        exact ⟨p, by simp [hp, hb]⟩
      rw [Function.update_of_ne hiq] at hb
      by_cases hip : i = p
      · subst hip
        rw [Function.update_self] at hb
        exact ⟨i, by rw [hp]; simp at hb ⊢; tauto⟩
      · rw [Function.update_of_ne hip] at hb
        exact ⟨i, hb⟩
    · rintro ⟨i, hb⟩
      by_cases hip : i = p
      · subst hip
        rw [hp, List.append_cons, List.mem_append] at hb
        rcases hb with hb | hb
        · exact ⟨i, by rwa [Function.update_of_ne hqp.symm, Function.update_self]⟩
        · exact ⟨q, by rwa [Function.update_self]⟩
      · have hiq : i ≠ q := by
          rintro rfl
          simp [hq] at hb
        exact ⟨i, by rwa [Function.update_of_ne hiq, Function.update_of_ne hip]⟩
  refine ⟨h.toMapeado.congr rfl rfl, ?_, ?_, ?_⟩
  · rw [Pokedex.escribir_disco, hasig]
    exact h.fat.split hq hqp hp
  · intro i b hb
    obtain ⟨j, hj⟩ := (hmem b).mp ⟨i, hb⟩
    exact h.enRango j b hj
  · intro b hb
    rw [hmem b]
    exact h.bits b hb

theorem returns_cortarCadena {t : Truncado} {pre post : List ℕ} (h : Ocupacion s.disco raiz cad)
    (hp : cad p = pre ++ post) (ht : t.En s pre post) {q : ℕ} (hq : cad q = []) (hqp : q ≠ p) :
    Op.Returns (cortarCadena (raiz p) t) s fun firstBlock s' =>
      Ocupacion s'.disco (update raiz p firstBlock) (update cad p pre) ∧
      libres s'.disco = libres s.disco + post.length ∧ Contenido (· ∈ pre) s s' := by
  have hc := h.fat.chain p
  rcases eq_or_ne pre [] with rfl | hpre
  · -- nothing is kept: the loop has not run
    rw [List.nil_append] at hp
    rw [hp] at hc
    have hsig : t.siguienteBloque = raiz p := ht.siguiente.start_unique hc
    obtain ⟨r, s', hrun, hocu, hlib, hcont⟩ := returns_liberarBloques h p
    rw [cortarCadena, Op.Returns, if_neg (not_not.mpr hsig), Op.pure_bind', hsig,
      ht.asignaciones]
    rw [hp] at hlib
    exact ⟨uint32Max, s', Op.bind_some hrun, hocu, hlib, hcont.mono fun _ hf => hf.elim⟩
  · obtain ⟨l, rfl⟩ := ht.anterior hpre
    set b := t.bloqueAEditar with hb
    have hp' : cad p = l ++ b :: post := by rw [hp]; simp
    rw [hp'] at hc
    have hlt : b < s.disco.header.dataBlocks := h.enRango p b (by simp [hp'])
    have hsig : t.siguienteBloque = s.disco.asignaciones b := ht.siguiente.start_unique hc.after
    have hne : t.siguienteBloque ≠ raiz p := by
      intro he
      have heq := ht.siguiente.unique (he ▸ hc)
      have hlen := congrArg List.length heq
      simp at hlen
      omega
    have hqp' : raiz q = uint32Max := h.raiz_eq.mp hq
    have hocu := h.partir hq hqp hp'
    obtain ⟨r, s', hrun, hocu', hlib, hcont⟩ := returns_liberarBloques hocu q
    rw [Function.update_self] at hlib hrun
    have hraiz : update (update raiz q (s.disco.asignaciones b)) q uint32Max =
        update raiz p (raiz p) := by
      rw [Function.update_idem, Function.update_eq_self, ← hqp', Function.update_eq_self]
    have hcad : update (update (update cad p (l ++ [b])) q post) q [] =
        update cad p (l ++ [b]) := by
      have hqv : update cad p (l ++ [b]) q = [] := by rw [Function.update_of_ne hqp, hq]
      rw [Function.update_idem]
      exact Function.update_eq_self_iff.mpr hqv.symm
    rw [hraiz, hcad] at hocu'
    have hasig : (s.escribir (.asignacion b uint32Max)).disco.asignaciones =
        update s.disco.asignaciones b uint32Max := aplicar_asignacion_asignaciones _ hlt _
    rw [hasig] at hrun
    refine ⟨raiz p, s', ?_, hocu', ?_, ?_⟩
    · rw [cortarCadena, if_pos hne, ht.asignaciones, ← hb,
        Op.bind_some (asignarSiguienteBloque_apply (h.ne_uint32Max hlt) _ _ _), Op.pure_bind', hsig]
      exact Op.bind_some hrun
    · rw [hlib]
      congr 1
    · exact (Contenido.asignacion hlt (by simp) _).trans (hcont.mono fun _ hf => hf.elim)

/-- The blocks that a truncation goes through, before it frees what is left. -/
def bloquesDeTruncado (inicio : ℤ) : ℕ :=
  if inicio ≠ 0 then max 1 (bloquesPara inicio.toNat) else 0

theorem returns_truncarHasta {descriptor : OsadaFile} {inicio : ℤ}
    (h : Ocupacion s.disco raiz cad) (hraiz : raiz p = descriptor.firstBlock)
    (hneed : bloquesDeTruncado inicio ≤ (cad p).length + libres s.disco)
    {q : ℕ} (hq : cad q = []) (hqp : q ≠ p) :
    Op.Returns (truncarHasta descriptor inicio) s fun r s' => ∃ nuevos,
      Ocupacion s'.disco (update raiz p r.2.firstBlock) (update cad p
        ((cad p ++ libresEnOrden s.disco).take (bloquesPara inicio.toNat))) ∧
      bloquesPara inicio.toNat + libres s'.disco = (cad p).length + libres s.disco ∧
      nuevos = (libresEnOrden s.disco).take (bloquesDeTruncado inicio - (cad p).length) ∧
      Contenido (· ∈ cad p ++ nuevos) s s' ∧ r.1 = 1 ∧
      r.2 = { descriptor with firstBlock := r.2.firstBlock } := by
  rw [truncarHasta, Op.Returns, Op.get_bind]
  unfold bloquesDeTruncado at hneed ⊢
  rcases eq_or_ne inicio 0 with rfl | hne
  · -- everything is freed
    have ht : Truncado.En ⟨raiz p, raiz p, 0, s.disco.asignaciones⟩ s [] (cad p) :=
      ⟨rfl, h.fat.chain p, fun hne => absurd rfl hne⟩
    obtain ⟨fb, s', hrun, hocu, hlib, hcont⟩ :=
      returns_cortarCadena h (List.nil_append _).symm ht hq hqp
    rw [if_neg (not_not.mpr rfl), ← hraiz, Op.pure_bind']
    refine ⟨(1, { descriptor with firstBlock := fb }), s',
      (Op.bind_some (truncarBloques_zero (le_refl _))).trans (Op.bind_some hrun), [], ?_, ?_, ?_,
      hcont.mono fun b hb => absurd hb List.not_mem_nil, rfl, rfl⟩
    · simpa [bloquesPara] using hocu
    · rw [hlib]
      simp [bloquesPara, Nat.add_comm]
    · simp
  · rw [if_pos hne] at hneed ⊢
    obtain ⟨⟨b, asig⟩, s₁, hrun₁, nuevos₁, post, hasig, hcre₁, hbp, hlen₁⟩ :=
      returns_primerBloque (p := p) h (by omega)
    simp only at hasig hcre₁ hbp
    subst hasig
    have hlib₁ := hcre₁.libres_eq
    have htam := congrArg List.length hbp
    rw [List.length_append, List.length_cons] at htam
    have hcad₁ : update cad p (cad p ++ nuevos₁) p = [] ++ b :: post := by
      rw [Function.update_self, hbp, List.nil_append]
    have hc₁ := hcre₁.ocupacion.fat.chain p
    rw [hcad₁, Function.update_self, List.nil_append] at hc₁
    have ht₁ : Truncado.En ⟨b, b, inicio, s₁.disco.asignaciones⟩ s₁ [] (b :: post) :=
      ⟨rfl, hc₁, fun hne => absurd rfl hne⟩
    obtain ⟨t, s₂, hrun₂, nuevos₂, pre, resto, hcre₂, hpartes, ht, hpre, hlen₂, _⟩ :=
      returns_truncarBloques inicio.toNat hcre₁.ocupacion hcad₁ ht₁ (fun _ => by simp)
        (by rw [List.length_cons]; simp only; omega) (le_refl _)
    have hcre := hcre₁.trans hcre₂
    rw [Function.update_self, List.append_assoc] at hpartes
    have hcad₂ : update (update cad p (cad p ++ nuevos₁)) p
        (update cad p (cad p ++ nuevos₁) p ++ nuevos₂) = update cad p (pre ++ resto) := by
      rw [Function.update_self, Function.update_idem, List.append_assoc, hpartes]
    have hocu₂ := hcre₂.ocupacion
    rw [hcad₂] at hocu₂
    obtain ⟨fb, s', hrun, hocu, hlib, hcont⟩ := returns_cortarCadena hocu₂
      (by rw [Function.update_self]) ht (by rw [Function.update_of_ne hqp, hq]) hqp
    rw [Function.update_self] at hrun
    rw [Function.update_idem, Function.update_idem] at hocu
    have hlib₂ := hcre.libres_eq
    have hreserva := hcre.reserva
    have htam₂ := congrArg List.length hpartes
    simp only [List.length_nil, Nat.zero_add, List.length_append, List.length_cons]
      at hpre hlen₂ htam₂ hlib₂
    have htoma : (cad p ++ libresEnOrden s.disco).take (bloquesPara inicio.toNat) = pre := by
      rw [← hreserva, ← List.append_assoc, hpartes, List.append_assoc, ← hpre, List.take_left]
    have hsub : ∀ x ∈ pre, x ∈ cad p ++ (nuevos₁ ++ nuevos₂) := by
      intro x hx
      rw [hpartes]
      exact List.mem_append_left _ hx
    rw [if_pos hne, ← hraiz, Op.bind_some hrun₁]
    refine ⟨(1, { descriptor with firstBlock := fb }), s',
      (Op.bind_some hrun₂).trans (Op.bind_some hrun), nuevos₁ ++ nuevos₂, ?_, ?_, ?_,
      hcre.contenido.trans (hcont.mono hsub), rfl, rfl⟩
    · rw [htoma]
      exact hocu
    · omega
    · have hk : (nuevos₁ ++ nuevos₂).length =
          max 1 (bloquesPara inicio.toNat) - (cad p).length := by
        rw [List.length_append, hlen₂]
        omega
      rw [← hk]
      exact hcre.nuevos_eq

end Rondas

/-! ## Writes out of place -/

namespace DeMapa

variable {R : Pokedex → Pokedex → Prop} (hR : DeMapa R)
include hR

theorem truncarBloque (t : Truncado) : Op.Keeps R (truncarBloque t) := by
  rw [Osada.truncarBloque]
  split
  · exact hR.bind (hR.pedirBloqueSiguiente _ _) fun _ => hR.pure _
  · exact hR.bind (hR.pure _) fun _ => hR.pure _

theorem truncarBloques (fuel : ℕ) (t : Truncado) : Op.Keeps R (truncarBloques fuel t) :=
  Op.Keeps.whileDo hR.refl hR.trans hR.truncarBloque fuel t

theorem cortarCadena (firstBlock : ℕ) (t : Truncado) :
    Op.Keeps R (cortarCadena firstBlock t) := by
  have hresto : ∀ r : ℕ × (ℕ → ℕ), Op.Keeps R (do
      let _ ← Osada.liberarBloques r.2 t.siguienteBloque
      Pure.pure r.1) := fun r => hR.bind (hR.liberarBloques _ _) fun _ => hR.pure _
  rw [Osada.cortarCadena]
  split
  · exact hR.bind (hR.asignarSiguienteBloque _ _ _) fun asig => hR.bind (hR.pure _) hresto
  · exact hR.bind (hR.pure _) hresto

theorem truncarHasta (descriptor : OsadaFile) (inicio : ℤ) :
    Op.Keeps R (truncarHasta descriptor inicio) := by
  rw [Osada.truncarHasta]
  refine hR.bind (hR.get _) fun d => ?_
  split
  · refine hR.bind (hR.primerBloque _ _) fun r => ?_
    refine hR.bind (hR.truncarBloques _ _) fun t => ?_
    exact hR.bind (hR.cortarCadena _ _) fun _ => hR.pure _
  · refine hR.bind (hR.pure _) fun r => ?_
    refine hR.bind (hR.truncarBloques _ _) fun t => ?_
    exact hR.bind (hR.cortarCadena _ _) fun _ => hR.pure _

theorem truncarArchivoInterna (descriptor : OsadaFile) (offset : ℕ) :
    Op.Keeps R (truncarArchivoInterna descriptor offset) := by
  rw [Osada.truncarArchivoInterna]
  refine hR.bind (hR.get _) fun d => ?_
  split
  · exact hR.pure _
  · exact hR.truncarHasta _ _

end DeMapa

section Sale
variable {s : Pokedex} {raiz : ℕ → ℕ} {cad : ℕ → List ℕ} {p : ℕ}

theorem sale_truncarBloques : ∀ (fuel : ℕ) {s : Pokedex} {cad : ℕ → List ℕ}
    {t : Truncado} {pre post : List ℕ}, Ocupacion s.disco raiz cad → cad p = pre ++ post →
    t.En s pre post → pre ++ post ≠ [] →
    post.length + libres s.disco < bloquesPara t.inicio.toNat → t.inicio.toNat ≤ fuel →
    Sale (truncarBloques fuel t) s := by
  intro fuel
  induction fuel with
  | zero =>
    intro s cad t pre post _ _ _ _ hfalta hfuel
    rw [Nat.le_zero.mp hfuel] at hfalta
    exact absurd hfalta (Nat.not_lt_zero _)
  | succ fuel ih =>
    intro s cad t pre post h hp ht hpp hfalta hfuel
    have hn : 0 < t.inicio := by
      by_contra hn
      rw [Int.toNat_of_nonpos (not_lt.mp hn)] at hfalta
      exact absurd hfalta (Nat.not_lt_zero _)
    rw [truncarBloques_succ hn]
    rcases Nat.eq_zero_or_pos (post.length + libres s.disco) with hcero | hmas
    · -- the chain is at its end and no block is free
      have hpost : post = [] := List.eq_nil_of_length_eq_zero (by omega)
      subst hpost
      obtain ⟨l, hl⟩ := ht.anterior (by simpa using hpp)
      have hlt := h.enRango p t.bloqueAEditar (by simp [hp, hl])
      refine Sale.bind ?_ fun _ => crece.truncarBloques _ _
      rw [truncarBloque, if_pos (ht.siguiente.eq_nil_iff.mp rfl)]
      exact Sale.bind (sale_pedirBloqueSiguiente h.toMapeado (by omega) hlt _) fun _ => crece.pure _
    · obtain ⟨t₁, s₁, hrun, nuevos, b, post₁, hcre, hbp, ht₁, hini, _⟩ :=
        returns_truncarBloque h hp ht hpp hmas
      have hb := bloquesPara_pos hn
      have hcad : update cad p (cad p ++ nuevos) p = (pre ++ [b]) ++ post₁ := by
        rw [Function.update_self, hp, List.append_assoc, hbp]
        simp
      have htam := congrArg List.length hbp
      rw [List.length_append, List.length_cons] at htam
      have hlib := hcre.libres_eq
      exact Sale.after hrun hcre.contenido.crece
        (ih hcre.ocupacion hcad ht₁ (by simp) (by rw [hini]; omega) (by omega))

theorem sale_truncarHasta {descriptor : OsadaFile} {inicio : ℤ}
    (h : Ocupacion s.disco raiz cad) (hraiz : raiz p = descriptor.firstBlock)
    (hfalta : (cad p).length + libres s.disco < bloquesDeTruncado inicio) :
    Sale (truncarHasta descriptor inicio) s := by
  have hne : inicio ≠ 0 := by
    rintro rfl
    exact absurd hfalta (Nat.not_lt_zero _)
  rw [bloquesDeTruncado, if_pos hne] at hfalta
  rw [truncarHasta]
  refine Sale.after (Op.get_apply _ _) (Crece.refl s) ?_
  rw [if_pos hne, ← hraiz]
  rcases Nat.eq_zero_or_pos ((cad p).length + libres s.disco) with hcero | hmas
  · have hp : cad p = [] := List.eq_nil_of_length_eq_zero (by omega)
    refine Sale.bind ?_ fun _ => crece.bind (crece.truncarBloques _ _) fun _ =>
      crece.bind (crece.cortarCadena _ _) fun _ => crece.pure _
    rw [primerBloque, if_pos (h.raiz_eq.mp hp)]
    exact sale_pedirPrimerBloque h.toMapeado (by omega) _
  · obtain ⟨⟨b, asig⟩, s₁, hrun, nuevos, post, hasig, hcre, hbp, _⟩ :=
      returns_primerBloque h hmas
    simp only at hasig hcre hbp
    subst hasig
    have hlib := hcre.libres_eq
    have htam := congrArg List.length hbp
    rw [List.length_append, List.length_cons] at htam
    have hcad : update cad p (cad p ++ nuevos) p = [] ++ b :: post := by
      rw [Function.update_self, hbp, List.nil_append]
    have hc := hcre.ocupacion.fat.chain p
    rw [hcad, Function.update_self, List.nil_append] at hc
    have ht : Truncado.En ⟨b, b, inicio, s₁.disco.asignaciones⟩ s₁ [] (b :: post) :=
      ⟨rfl, hc, fun hne => absurd rfl hne⟩
    refine Sale.after hrun hcre.contenido.crece (Sale.bind ?_ fun _ =>
      crece.bind (crece.cortarCadena _ _) fun _ => crece.pure _)
    exact sale_truncarBloques inicio.toNat hcre.ocupacion hcad ht (by simp)
      (by rw [List.length_cons]; simp only; omega) (le_refl _)

end Sale

end TpSo.Osada
