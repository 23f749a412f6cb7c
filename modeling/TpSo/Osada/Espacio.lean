import TpSo.Osada.Contenidos

/-!
# The checks of the free space

A write and a truncation compare what they are asked for with the size of the file and the free
blocks, in 32 bits without sign. A request they let through should find the blocks it goes
through; the check of the truncation keeps to that, and the check of the write does not when the
position is past the end of the file by more than the free space: the difference wraps.
-/

namespace TpSo.Osada

/-- The blocks that a file of `largo` blocks is short of to have `hasta` bytes. -/
def bloquesFaltantes (hasta : ℤ) (largo : ℕ) : ℤ := max 0 ((hasta + 63) / 64 - largo)

/-- The file of a well-formed disk that a descriptor is of, and the length of its chain. -/
def EsDeArchivo (s : Pokedex) (e : OsadaFile) (largo : ℕ) : Prop :=
  ∃ p xs, ArchivoEn s.disco p xs ∧ e = s.disco.archivos p ∧ xs.length = largo

/-- All bits and cells written between the two states are those of blocks: whenever a block was asked
for, there was one. -/
def HuboBloques (s s' : Pokedex) : Prop :=
  ∃ ws, s'.escrituras = s.escrituras ++ ws ∧
    ∀ w ∈ ws, w.DelMapa → EnSuLugar s.disco.header (fun _ => False) w

/-- What the check at the head of `editarArchivoInterna` has to see to. -/
structure EdicionSegura (s : Pokedex) (e : OsadaFile) (largo : ℕ) (n pos : ℤ)
    (edicion : List UInt8) : Prop where
  alcanza : PasaEdicion s.disco e n pos →
    bloquesFaltantes (pos + n) largo ≤ obtenerBloquesLibres s.disco
  termina : PasaEdicion s.disco e n pos → EsDeArchivo s e largo →
    Op.Returns (editarArchivoInterna e n pos edicion) s fun _ s' => HuboBloques s s'
  rechaza : ¬ PasaEdicion s.disco e n pos →
    editarArchivoInterna e n pos edicion s = (some (noHayEspacio, e), s)

/-- What the check at the head of `truncarArchivoInterna` looks at. -/
def PasaTruncado (d : Disco) (e : OsadaFile) (offset : ℕ) : Prop :=
  offset ≤ u32 (e.fileSize + obtenerBloquesLibres d * 64)

/-- What that check has to see to. -/
structure TruncadoSeguro (s : Pokedex) (e : OsadaFile) (largo offset : ℕ) : Prop where
  alcanza : PasaTruncado s.disco e offset →
    bloquesFaltantes offset largo ≤ obtenerBloquesLibres s.disco
  termina : PasaTruncado s.disco e offset → EsDeArchivo s e largo →
    Op.Returns (truncarArchivoInterna e offset) s fun _ s' => HuboBloques s s'
  rechaza : ¬ PasaTruncado s.disco e offset →
    truncarArchivoInterna e offset s = (some (noHayEspacio, e), s)

section Cuentas
variable {size largo libres : ℕ} {n pos : ℤ}

theorem bloquesFaltantes_le {hasta : ℤ} :
    bloquesFaltantes hasta largo ≤ libres ↔ hasta ≤ 64 * (largo + libres : ℕ) := by
  unfold bloquesFaltantes
  omega

/-- The comparison of a write in 32 bits, against the same one in the integers. -/
theorem comparacion_iff (hsize : size ≤ uint32Max) (hlargo : bloquesPara size ≤ largo)
    (hn : -2147483648 ≤ n ∧ n < 2147483648) (hpos : -2147483648 ≤ pos ∧ pos < 2147483648) :
    (u32 n ≤ u32 (size - pos + libres * 64) → bloquesFaltantes (pos + n) largo ≤ libres) ↔
      pos ≤ size + libres * 64 ∨ n < 0 ∨ bloquesFaltantes (pos + n) largo ≤ libres := by
  rw [bloquesFaltantes_le]
  unfold uint32Max at hsize
  unfold bloquesPara at hlargo
  unfold u32
  omega

theorem comparacion_truncado {offset : ℕ} (hlargo : bloquesPara size ≤ largo)
    (hpasa : offset ≤ u32 (size + libres * 64)) :
    bloquesFaltantes offset largo ≤ libres := by
  rw [bloquesFaltantes_le]
  unfold bloquesPara at hlargo
  unfold u32 at hpasa
  omega

end Cuentas

section Corridas
variable {s : Pokedex} {e : OsadaFile} {largo : ℕ} {n pos : ℤ} {edicion : List UInt8}

theorem editarArchivoInterna_rechaza (hno : ¬ PasaEdicion s.disco e n pos) :
    editarArchivoInterna e n pos edicion s = (some (noHayEspacio, e), s) := by
  rw [editarArchivoInterna, Op.get_bind, if_pos (Nat.lt_of_not_le hno), Op.pure_apply]

theorem Escritura.DelMapa.enSuLugar {H : OsadaHeader} {P Q : ℕ → Prop} {w : Escritura}
    (hw : w.DelMapa) (h : EnSuLugar H P w) : EnSuLugar H Q w := by
  cases w with
  | bitmap => exact h
  | asignacion => exact h
  | descriptor => exact hw.elim
  | datos => exact hw.elim

theorem Contenido.huboBloques {P : ℕ → Prop} {s s' : Pokedex} (h : Contenido P s s') :
    HuboBloques s s' := by
  obtain ⟨ws, hws, hlugar⟩ := h.escrituras
  exact ⟨ws, hws, fun w hw hmapa => hmapa.enSuLugar (hlugar w hw)⟩

theorem HuboBloques.trans {s s' s'' : Pokedex} (h : HuboBloques s s') (h' : HuboBloques s' s'')
    (hheader : s'.disco.header = s.disco.header) : HuboBloques s s'' := by
  obtain ⟨ws, hws, hw⟩ := h
  obtain ⟨ws', hws', hw'⟩ := h'
  refine ⟨ws ++ ws', by rw [hws', hws, List.append_assoc], fun w hmem hmapa => ?_⟩
  rcases List.mem_append.mp hmem with hmem | hmem
  · exact hw w hmem hmapa
  · exact hheader ▸ hw' w hmem hmapa

theorem huboBloques_trasPrimera (s : Pokedex) (b : ℕ) (n pos : ℤ) (edicion : List UInt8) :
    HuboBloques s (trasPrimera s b n pos edicion) := by
  have hnada : HuboBloques s s := ⟨[], by simp⟩
  unfold trasPrimera Edicion.traslado
  split
  · split
    · refine ⟨[_], rfl, fun w hw hmapa => ?_⟩
      rw [List.mem_singleton.mp hw] at hmapa
      exact hmapa.elim
    · exact hnada
  · exact hnada

theorem Sale.not_huboBloques {α : Type} {x : Op Pokedex α} {s s' : Pokedex} {a : α}
    (h : Sale x s) (hrun : x s = (some a, s')) : ¬ HuboBloques s s' := by
  rintro ⟨ws, hws, hlugar⟩
  obtain ⟨p, v, hp, pre, ⟨post, hpost⟩, t, rfl⟩ := h
  rw [hrun, hws, List.append_assoc, List.append_assoc] at hpost
  have hmem : Escritura.asignacion p v ∈ ws := by
    rw [← List.append_cancel_left hpost]
    simp
  exact absurd (hlugar _ hmem trivial) (Nat.not_lt.mpr hp)

/-- Past the check, a write comes back with the blocks it asked for exactly when there are blocks for
its rounds, and one for an empty file. -/
theorem editarArchivoInterna_termina_iff (h : EsDeArchivo s e largo)
    (hn : n < 2147483648) (hpos : pos < 2147483648) (hpasa : PasaEdicion s.disco e n pos) :
    Op.Returns (editarArchivoInterna e n pos edicion) s (fun _ s' => HuboBloques s s') ↔
      max 1 (rondas n pos) ≤ largo + obtenerBloquesLibres s.disco := by
  obtain ⟨p, xs, ha, rfl, rfl⟩ := h
  obtain ⟨cad, hocu, _, rfl⟩ := ha.ocupacion
  rw [ha.tamanio.2.2]
  constructor
  · rintro ⟨r, s', hrun, hhubo⟩
    by_contra hfalta
    have hsale : Sale (editarArchivoInterna (s.disco.archivos p) n pos edicion) s :=
      (falta_editarArchivoInterna hocu ha.raiz hpasa (Nat.lt_of_not_le hfalta)
        (hocu.rondas_lt (by omega))).sale
    exact hsale.not_huboBloques hrun hhubo
  · intro hneed
    refine (returns_editarArchivoInterna_partes edicion hocu ha.raiz hpasa hneed rfl).mono ?_
    rintro r s' ⟨b, post, s₁, nuevos₁, nuevos₂, _, _, hcre, hcre', _⟩
    have hheader₁ := hcre.contenido.header
    have hheader₂ : (trasPrimera s₁ b n pos edicion).disco.header = s₁.disco.header := by
      unfold trasPrimera
      split
      · exact (traslado_disco _ s₁).1
      · rfl
    exact (hcre.contenido.huboBloques.trans (huboBloques_trasPrimera s₁ b n pos edicion)
      hheader₁).trans hcre'.contenido.huboBloques (hheader₂.trans hheader₁)

theorem truncarArchivoInterna_termina {offset : ℕ} (h : EsDeArchivo s e largo)
    (hpasa : PasaTruncado s.disco e offset) :
    Op.Returns (truncarArchivoInterna e offset) s fun _ s' => HuboBloques s s' := by
  obtain ⟨p, xs, ha, rfl, rfl⟩ := h
  obtain ⟨hsize, hmax, hlibres⟩ := ha.tamanio
  obtain ⟨cad, hocu, _, rfl⟩ := ha.ocupacion
  unfold PasaTruncado at hpasa
  have hoffset : offset ≤ (s.disco.archivos p).fileSize + libres s.disco * 64 := by
    rw [hlibres] at hpasa
    unfold u32 at hpasa
    omega
  have hi : i32 offset = offset := i32_natCast_of_lt (by omega)
  have hneed : bloquesDeTruncado offset ≤ (cad p).length + libres s.disco := by
    unfold bloquesDeTruncado bloquesPara
    split <;> omega
  have hafuera : cad 2048 = [] := hocu.cad_eq_nil fun hr => absurd hr.1 (by decide)
  obtain ⟨r, s', hrun, nuevos, _, _, _, hcont, _⟩ :=
    returns_truncarHasta hocu ha.raiz hneed hafuera ha.enTabla.ne'
  rw [← hi] at hrun
  exact ⟨r, s', truncarArchivoInterna_apply hpasa hrun, hcont.huboBloques⟩

end Corridas

/-- The check of the write is to be relied on exactly when the position is not past the end of the
file and of the free space, or nothing is written, or the bytes fit all the same; and for an empty
file on a full disk only if it turns the write down. The check of the truncation always is. -/
theorem comprobaciones_iff (s : Pokedex) {e : OsadaFile} (hsize : e.fileSize ≤ uint32Max)
    {largo : ℕ} (hlargo : bloquesPara e.fileSize ≤ largo) {n pos : ℤ}
    (hn : -2147483648 ≤ n ∧ n < 2147483648) (hpos : -2147483648 ≤ pos ∧ pos < 2147483648)
    (edicion : List UInt8) (offset : ℕ) :
    EdicionSegura s e largo n pos edicion ∧ TruncadoSeguro s e largo offset ↔
      (pos ≤ e.fileSize + obtenerBloquesLibres s.disco * 64 ∨ n < 0 ∨
        pos + n ≤ 64 * (largo + obtenerBloquesLibres s.disco : ℕ)) ∧
      (0 < largo + obtenerBloquesLibres s.disco ∨ ¬ PasaEdicion s.disco e n pos ∨
        ¬ EsDeArchivo s e largo) := by
  have htruncado : TruncadoSeguro s e largo offset := by
    refine ⟨fun hpasa => comparacion_truncado hlargo hpasa,
      fun hpasa h => truncarArchivoInterna_termina h hpasa, fun hno => ?_⟩
    rw [truncarArchivoInterna, Op.bind_some (Op.get_apply _ _), if_pos (Nat.lt_of_not_le hno),
      Op.pure_apply]
  have hcuenta : (PasaEdicion s.disco e n pos →
      bloquesFaltantes (pos + n) largo ≤ obtenerBloquesLibres s.disco) ↔
      pos ≤ e.fileSize + obtenerBloquesLibres s.disco * 64 ∨ n < 0 ∨
        bloquesFaltantes (pos + n) largo ≤ obtenerBloquesLibres s.disco :=
    comparacion_iff hsize hlargo hn hpos
  rw [and_iff_left htruncado, ← bloquesFaltantes_le, ← hcuenta]
  constructor
  · intro h
    refine ⟨h.alcanza, ?_⟩
    by_contra hno
    rw [not_or, not_or, not_not, not_not] at hno
    obtain ⟨hcero, hpasa, harchivo⟩ := hno
    have hfin := (editarArchivoInterna_termina_iff harchivo hn.2 hpos.2 hpasa).mp
      (h.termina hpasa harchivo)
    omega
  · rintro ⟨halcanza, hresto⟩
    refine ⟨halcanza, fun hpasa harchivo => ?_, editarArchivoInterna_rechaza⟩
    have hmas : 0 < largo + obtenerBloquesLibres s.disco :=
      hresto.resolve_right fun hc => hc.elim (fun hno => hno hpasa) fun hno => hno harchivo
    refine (editarArchivoInterna_termina_iff harchivo hn.2 hpos.2 hpasa).mpr ?_
    have hle := bloquesFaltantes_le.mp (halcanza hpasa)
    unfold rondas
    split <;> omega

theorem obtenerBloquesLibres_conA {k size : ℕ} (hk : k ≤ 16) (hsize : bloquesPara size ≤ k) :
    obtenerBloquesLibres (Pokedex.inicial (discoConA k size)).disco = 16 - k := by
  have ha : ArchivoEn (Pokedex.inicial (discoConA k size)).disco 0 (List.range k) :=
    archivoEn_conA hk hsize
  rw [ha.tamanio.2.2]
  exact libres_conArchivo

theorem comprobaciones_a : EdicionSegura (.inicial (discoConA 1 10)) ((discoConA 1 10).archivos 0)
      1 3 5 [1, 2, 3] ∧
    TruncadoSeguro (.inicial (discoConA 1 10)) ((discoConA 1 10).archivos 0) 1 20 := by
  have hlargo : bloquesPara ((discoConA 1 10).archivos 0).fileSize ≤ 1 := by decide
  have hpos : (5 : ℤ) ≤ ((discoConA 1 10).archivos 0).fileSize +
      obtenerBloquesLibres (Pokedex.inicial (discoConA 1 10)).disco * 64 := by
    rw [obtenerBloquesLibres_conA (by decide) (by decide)]
    decide
  exact (comprobaciones_iff (.inicial (discoConA 1 10)) (by decide) hlargo (by decide) (by decide)
    [1, 2, 3] 20).mpr ⟨.inl hpos, .inl (by omega)⟩

/-- Ten bytes past the end of a file, and past what is free, are let through. -/
theorem comprobacion_que_da_la_vuelta : ¬ ∀ (s : Pokedex) (e : OsadaFile) (largo : ℕ) (n pos : ℤ)
    (edicion : List UInt8), e.fileSize ≤ uint32Max → bloquesPara e.fileSize ≤ largo →
    -2147483648 ≤ n ∧ n < 2147483648 → -2147483648 ≤ pos ∧ pos < 2147483648 →
    EdicionSegura s e largo n pos edicion := by
  intro hall
  have hlibres := obtenerBloquesLibres_conA (k := 15) (show 15 ≤ 16 by decide)
    (show bloquesPara 900 ≤ 15 by decide)
  have hpasa : PasaEdicion (Pokedex.inicial (discoConA 15 900)).disco
      ((discoConA 15 900).archivos 0) 10 2000 := by
    rw [PasaEdicion, hlibres]
    decide
  have hsegura := hall (.inicial (discoConA 15 900)) ((discoConA 15 900).archivos 0) 15 10 2000
    (List.replicate 10 0) (by decide) (by decide) (by decide) (by decide)
  have hle := hsegura.alcanza hpasa
  rw [hlibres] at hle
  exact absurd hle (by decide)

end TpSo.Osada
