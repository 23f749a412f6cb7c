import TpSo.Base.Threads
import TpSo.Osada.Arbol

/-!
# Creations of entries by several threads

`escribirDescriptor` in the pieces in which it runs: the copy of the table and of the cursor,
the rounds of the search, each under the mutex, and the write of the descriptor. A slot that
is granted is marked until its descriptor is written; after that only the table says that it
is taken, and the copy of the table may be older.
-/

namespace TpSo.Osada

open Function (update)

namespace Alta

inductive Orden where
  | copiar
  | probar (archivos : ℕ → OsadaFile) (i : ℕ)
  | escribir (posicion : ℕ) (descriptor : OsadaFile)

abbrev Orden.Respuesta : Orden → Type
  | copiar => (ℕ → OsadaFile) × ℕ
  | probar _ _ => Option ℤ × ℕ
  | escribir _ _ => PUnit

def Orden.ejecutar : (o : Orden) → Op Pokedex o.Respuesta
  | copiar => do
    let archivos ← Op.get fun s => s.disco.archivos
    let i ← normalizarCursor
    pure (archivos, i)
  | probar archivos i => probarEntrada archivos i
  | escribir posicion descriptor => do
    tomarLock posicion
    escribirOtorgada posicion descriptor

inductive Hilo where
  | inicio (descriptor : OsadaFile)
  | buscando (descriptor : OsadaFile) (archivos : ℕ → OsadaFile) (i : ℕ)
  | otorgada (descriptor : OsadaFile) (posicion : ℕ)
  | hecha (descriptor : OsadaFile) (posicion : ℕ)

def Hilo.siguiente : Hilo → Option ((o : Orden) × (o.Respuesta → Hilo))
  | inicio e => some ⟨.copiar, fun r => buscando e r.1 r.2⟩
  | buscando e archivos i => some ⟨.probar archivos i, fun r =>
    match r.1 with
    | some libre => otorgada e (u16 libre)
    | none => buscando e archivos r.2⟩
  | otorgada e posicion => some ⟨.escribir posicion e, fun _ => hecha e posicion⟩
  | hecha _ _ => none

/-- The position the thread was given. A search that finds nothing gives `0xFFFF`, and the thread dies
when it asks for the lock of it. -/
def Hilo.posicion : Hilo → Option ℕ
  | inicio _ | buscando _ _ _ => none
  | otorgada _ posicion | hecha _ posicion => some posicion

def Hilo.descriptor : Hilo → OsadaFile
  | inicio e | buscando e _ _ | otorgada e _ | hecha e _ => e

def hilos : Threads Orden Orden.Respuesta Pokedex Hilo where
  exec := Orden.ejecutar
  next := Hilo.siguiente

variable {ι : Type} [DecidableEq ι]

abbrev Estado (ι : Type) := Threads.Config ι Pokedex Hilo

/-- Every thread is to create the entry of its descriptor. -/
def comienzo (s : Pokedex) (nuevo : ι → OsadaFile) : Estado ι := ⟨s, fun t => .inicio (nuevo t)⟩

/-- The copy that a round goes by is not out of date where it would grant a slot. -/
def CopiaVigente (c : Estado ι) (e : Threads.Event ι Orden.Respuesta) : Prop :=
  match e.command with
  | .probar archivos i => (archivos i).state = .deleted →
    c.memory.entradasLibresOtorgadas i = false → (c.memory.disco.archivos i).state = .deleted
  | .copiar | .escribir _ _ => True

/-! ## A thread on its own -/

theorem copiar_apply (s : Pokedex) : ∃ i s₁, normalizarCursor s = (some i, s₁) ∧
    Orden.copiar.ejecutar s = (some (s.disco.archivos, i), s₁) ∧ i < 2048 ∧
    s₁.disco = s.disco ∧ s₁.entradasLibresOtorgadas = s.entradasLibresOtorgadas := by
  refine ⟨_, _, rfl, rfl, ?_, rfl, rfl⟩
  split <;> omega

theorem buscar_sola (th : ι → Hilo) (t : ι) (e : OsadaFile) (archivos : ℕ → OsadaFile) :
    ∀ (vueltas i : ℕ) (s s' : Pokedex) (libre : ℤ) (i' : ℕ),
      buscarEntrada archivos vueltas i s = (some (some libre, i'), s') →
      ∃ es, Run hilos.Step ⟨s, update th t (.buscando e archivos i)⟩ es
        ⟨s', update th t (.otorgada e (u16 libre))⟩ := by
  intro vueltas
  induction vueltas with
  | zero =>
    intro i s s' libre i' h
    simp [buscarEntrada, Op.whileDo] at h
  | succ n ih =>
    intro i s s' libre i' h
    rw [buscarEntrada, Op.whileDo, if_pos (by simp)] at h
    rcases hp : probarEntrada archivos i s with ⟨_ | ⟨hallado, j⟩, s₁⟩
    · rw [Op.bind_none hp] at h
      simp at h
    · rw [Op.bind_some hp] at h
      have hstep : hilos.Step ⟨s, update th t (.buscando e archivos i)⟩ ⟨t, .probar archivos i, _⟩
          ⟨s₁, update th t _⟩ := .alone rfl hp
      cases hallado with
      | none =>
        obtain ⟨es, hrun⟩ := ih j s₁ s' libre i' h
        exact ⟨_, .cons hstep hrun⟩
      | some q =>
        have hfin : (some (some q, j), s₁) = (some (some libre, i'), s') := by
          rw [← h]
          cases n <;> simp [Op.whileDo]
        simp only [Prod.mk.injEq, Option.some.injEq] at hfin
        obtain ⟨⟨rfl, rfl⟩, rfl⟩ := hfin
        exact ⟨_, .cons hstep (.nil _)⟩

/-- A creation with nothing in between its pieces is `escribirDescriptor`. -/
theorem alta_sola {th : ι → Hilo} (t : ι) {e : OsadaFile} {s s' : Pokedex} {r : ℤ}
    (h : escribirDescriptor e s = (some r, s')) :
    ∃ es, ∃ p : ℕ, r = i16 p ∧ Run hilos.Step ⟨s, update th t (.inicio e)⟩ es
      ⟨s', update th t (.hecha e p)⟩ := by
  obtain ⟨i, s₁, hcursor, hcopiar, _⟩ := copiar_apply s
  have hlibre : obtenerEstructuraDeArchivoLibre s =
      (buscarEntrada s.disco.archivos 2048 i >>= fun r => pure (r.1.getD (-1))) s₁ := by
    rw [obtenerEstructuraDeArchivoLibre, Op.bind_some (Op.get_apply _ _), Op.bind_some hcursor]
  rcases hb : buscarEntrada s.disco.archivos 2048 i s₁ with ⟨_ | ⟨hallado, j⟩, s₂⟩
  · rw [Op.bind_none hb] at hlibre
    rw [escribirDescriptor, Op.bind_none hlibre] at h
    simp at h
  · have hfin := Op.whileDo_cond _ hb
    obtain ⟨libre, rfl⟩ : ∃ libre, hallado = some libre :=
      Option.ne_none_iff_exists'.mp (of_decide_eq_false hfin)
    rw [Op.bind_some hb, Op.pure_apply] at hlibre
    rw [escribirDescriptor, Op.bind_some hlibre] at h
    have hescribe : (Orden.escribir (u16 libre) e).ejecutar s₂ = (some ⟨⟩, s') ∧
        r = i16 (u16 libre) := by
      simp only [Option.getD_some] at h
      rw [Orden.ejecutar]
      rcases Nat.lt_or_ge (u16 libre) 2048 with hp | hp
      · rw [tomarLock_bind hp] at h ⊢
        obtain ⟨hr, rfl⟩ := Op.some_inj h
        exact ⟨rfl, hr.symm⟩
      · rw [tomarLock_bind_fuera hp] at h
        simp at h
    obtain ⟨es, hrun⟩ := buscar_sola th t e s.disco.archivos 2048 i s₁ s₂ libre j hb
    refine ⟨_, u16 libre, hescribe.2, .cons (Threads.Step.alone rfl hcopiar)
      (hrun.append (.cons (Threads.Step.alone rfl hescribe.1) (.nil _)))⟩

/-! ## The threads together -/

theorem probarEntrada_cases {archivos : ℕ → OsadaFile} {i : ℕ} {s s' : Pokedex}
    {r : Option ℤ × ℕ} (h : probarEntrada archivos i s = (some r, s')) :
    (r.1 = some (i : ℤ) ∧ (archivos i).state = .deleted ∧
      s.entradasLibresOtorgadas i = false ∧ s' = s.otorgar i) ∨
    (r.1 = some (-1) ∧ s' = { s with obtenerEntradaArchivoLibreMutex := true }) ∨
    (r.1 = none ∧ (i < 2048 → r.2 < 2048) ∧ s' = s) := by
  unfold probarEntrada at h
  split at h
  · simp at h
  · split at h
    · next hlibre =>
      simp only [Prod.mk.injEq, Option.some.injEq] at h
      obtain ⟨rfl, rfl⟩ := h
      exact .inl ⟨rfl, hlibre.1, hlibre.2, rfl⟩
    · simp only at h
      have hsig : i < 2048 → (if i + 1 = 2048 then 0 else i + 1) < 2048 := fun hi => by
        split <;> omega
      generalize (if i + 1 = 2048 then 0 else i + 1) = j at h hsig
      split at h
      · simp only [Prod.mk.injEq, Option.some.injEq] at h
        obtain ⟨rfl, rfl⟩ := h
        exact .inr (.inl ⟨rfl, rfl⟩)
      · simp only [Prod.mk.injEq, Option.some.injEq] at h
        obtain ⟨rfl, rfl⟩ := h
        exact .inr (.inr ⟨rfl, hsig, rfl⟩)

/-- What the server's memory says of a thread. -/
def Hilo.Bien (s : Pokedex) : Hilo → Prop
  | inicio _ => True
  | buscando _ _ i => i < 2048
  | otorgada _ p => p < 2048 → s.entradasLibresOtorgadas p = true ∧
    (s.disco.archivos p).state = .deleted
  | hecha e p => p < 2048 → s.disco.archivos p = e

structure Reparto (nuevo : ι → OsadaFile) (s : Pokedex) (hilo : ι → Hilo) : Prop where
  descriptor : ∀ t, (hilo t).descriptor = nuevo t
  bien : ∀ t, (hilo t).Bien s
  distintas : ∀ t t' p, (hilo t).posicion = some p → (hilo t').posicion = some p → p < 2048 →
    t = t'

omit [DecidableEq ι] in
theorem reparto_comienzo (s : Pokedex) (nuevo : ι → OsadaFile) :
    Reparto nuevo (comienzo s nuevo).memory (comienzo s nuevo).thread where
  descriptor _ := rfl
  bien _ := trivial
  distintas _ _ _ h := by simp [comienzo, Hilo.posicion] at h

section Reparto
variable {s s' : Pokedex} {nuevo : ι → OsadaFile} {hilo : ι → Hilo}

/-- A thread that moves on without being given a slot that another one has, over a memory that
says of the others what it said. -/
theorem Reparto.update {t : ι} {h' : Hilo} (h : Reparto nuevo s hilo)
    (hdes : h'.descriptor = (hilo t).descriptor) (hbien : h'.Bien s')
    (hotros : ∀ t', t' ≠ t → (hilo t').Bien s')
    (hpos : ∀ p < 2048, h'.posicion = some p →
      ∀ t', t' ≠ t → (hilo t').posicion ≠ some p) :
    Reparto nuevo s' (update hilo t h') where
  descriptor t' := by
    rcases eq_or_ne t' t with rfl | hne
    · rw [Function.update_self, hdes, h.descriptor]
    · rw [Function.update_of_ne hne, h.descriptor]
  bien t' := by
    rcases eq_or_ne t' t with rfl | hne
    · rwa [Function.update_self]
    · rw [Function.update_of_ne hne]
      exact hotros t' hne
  distintas := by
    intro t₁ t₂ p hp₁ hp₂ hp
    rcases eq_or_ne t₁ t with rfl | hne₁
    · rcases eq_or_ne t₂ t₁ with rfl | hne₂
      · rfl
      · rw [Function.update_self] at hp₁
        rw [Function.update_of_ne hne₂] at hp₂
        exact absurd hp₂ (hpos p hp hp₁ t₂ hne₂)
    · rw [Function.update_of_ne hne₁] at hp₁
      rcases eq_or_ne t₂ t with rfl | hne₂
      · rw [Function.update_self] at hp₂
        exact absurd hp₁ (hpos p hp hp₂ t₁ hne₁)
      · rw [Function.update_of_ne hne₂] at hp₂
        exact h.distintas t₁ t₂ p hp₁ hp₂ hp

/-- What the memory says of a thread depends on the slot it was given. -/
theorem Hilo.Bien.congr {h : Hilo} (hb : h.Bien s)
    (hs : ∀ p < 2048, h.posicion = some p →
      s'.disco.archivos p = s.disco.archivos p ∧
        s'.entradasLibresOtorgadas p = s.entradasLibresOtorgadas p) : h.Bien s' := by
  cases h with
  | inicio e => trivial
  | buscando e archivos i => exact hb
  | otorgada e p =>
    intro hp
    rw [(hs p hp rfl).1, (hs p hp rfl).2]
    exact hb hp
  | hecha e p =>
    intro hp
    rw [(hs p hp rfl).1]
    exact hb hp

omit [DecidableEq ι] in
/-- A free slot that is deleted in the table is nobody's. -/
theorem Reparto.libre (h : Reparto nuevo s hilo) (hnuevo : ∀ t, (nuevo t).Vivo) {i : ℕ}
    (hi : i < 2048) (hdel : (s.disco.archivos i).state = .deleted)
    (hlibre : s.entradasLibresOtorgadas i = false) (t : ι) : (hilo t).posicion ≠ some i := by
  intro hpos
  have hbien := h.bien t
  have hdes := h.descriptor t
  cases ht : hilo t with
  | inicio e => simp [ht, Hilo.posicion] at hpos
  | buscando e archivos j => simp [ht, Hilo.posicion] at hpos
  | otorgada e p =>
    rw [ht, Hilo.posicion, Option.some.injEq] at hpos
    rw [ht] at hbien
    have hotorgada := (hbien (hpos ▸ hi)).1
    rw [hpos, hlibre] at hotorgada
    simp at hotorgada
  | hecha e p =>
    rw [ht, Hilo.posicion, Option.some.injEq] at hpos
    rw [ht] at hbien hdes
    have hesta : s.disco.archivos p = e := hbien (hpos ▸ hi)
    rw [hpos] at hesta
    apply hnuevo t
    rw [← hdes, Hilo.descriptor, ← hesta, hdel]

theorem reparto_copiar {t : ι} {e : OsadaFile} {r : (ℕ → OsadaFile) × ℕ}
    (h : Reparto nuevo s hilo) (ht : hilo t = .inicio e)
    (hexec : Orden.copiar.ejecutar s = (some r, s')) :
    Reparto nuevo s' (update hilo t (.buscando e r.1 r.2)) := by
  obtain ⟨i, s₁, _, hcopiar, hi, hdisco, hotorgadas⟩ := copiar_apply s
  have heq := hexec.symm.trans hcopiar
  simp only [Prod.mk.injEq, Option.some.injEq] at heq
  obtain ⟨rfl, rfl⟩ := heq
  refine h.update (by rw [ht]; rfl) hi (fun t' _ => (h.bien t').congr fun p _ _ => ?_)
    fun p _ hp => by simp [Hilo.posicion] at hp
  rw [hdisco, hotorgadas]
  exact ⟨rfl, rfl⟩

theorem reparto_probar {t : ι} {e : OsadaFile} {archivos : ℕ → OsadaFile} {i : ℕ}
    {r : Option ℤ × ℕ} (h : Reparto nuevo s hilo) (hnuevo : ∀ t, (nuevo t).Vivo)
    (ht : hilo t = .buscando e archivos i)
    (hvigente : (archivos i).state = .deleted → s.entradasLibresOtorgadas i = false →
      (s.disco.archivos i).state = .deleted)
    (hexec : probarEntrada archivos i s = (some r, s')) :
    Reparto nuevo s' (update hilo t (match r.1 with
      | some libre => .otorgada e (u16 libre)
      | none => .buscando e archivos r.2)) := by
  have hi : i < 2048 := by
    have hbien := h.bien t
    rwa [ht] at hbien
  have hdes : (hilo t).descriptor = e := by rw [ht]; rfl
  rcases probarEntrada_cases hexec with
    ⟨hr, hcopia, hlibre, rfl⟩ | ⟨hr, rfl⟩ | ⟨hr, hsig, rfl⟩
  · -- slot `i` is granted
    have hdel := hvigente hcopia hlibre
    have hnadie := h.libre hnuevo hi hdel hlibre
    rw [hr]
    simp only
    rw [u16_natCast_of_lt (by omega)]
    refine h.update hdes.symm (fun _ => ⟨Function.update_self _ _ _, hdel⟩)
      (fun t' _ => (h.bien t').congr fun p _ hp => ⟨rfl, ?_⟩) fun p _ hp t' _ hp' => ?_
    · have hne : p ≠ i := fun he => hnadie t' (he ▸ hp)
      exact Function.update_of_ne hne _ _
    · rw [Hilo.posicion, Option.some.injEq] at hp
      exact hnadie t' (hp ▸ hp')
  · -- the search found nothing: position `0xFFFF`
    rw [hr]
    simp only
    have hfuera : ¬ u16 (-1) < 2048 := by decide
    refine h.update hdes.symm (fun hp => absurd hp hfuera)
      (fun t' _ => (h.bien t').congr fun p _ _ => ⟨rfl, rfl⟩) fun p hp hpos => ?_
    rw [Hilo.posicion, Option.some.injEq] at hpos
    exact absurd (hpos ▸ hp) hfuera
  · rw [hr]
    exact h.update hdes.symm (hsig hi) (fun t' _ => h.bien t')
      fun p _ hp => by simp [Hilo.posicion] at hp

theorem reparto_escribir {t : ι} {e : OsadaFile} {p : ℕ} (h : Reparto nuevo s hilo)
    (ht : hilo t = .otorgada e p)
    (hexec : (Orden.escribir p e).ejecutar s = (some ⟨⟩, s')) :
    Reparto nuevo s' (update hilo t (.hecha e p)) := by
  have hpos : (hilo t).posicion = some p := by rw [ht]; rfl
  rw [Orden.ejecutar] at hexec
  have hlock : p < 2048 := by
    by_contra hfuera
    rw [tomarLock_bind_fuera (Nat.le_of_not_lt hfuera)] at hexec
    simp at hexec
  rw [tomarLock_bind hlock] at hexec
  have hs' : s' = { s.escribir (.descriptor p e) with
      entradasLibresOtorgadas := update s.entradasLibresOtorgadas p false } :=
    (Prod.mk.inj hexec).2.symm
  subst hs'
  have hotro : ∀ t' q, t' ≠ t → q < 2048 → (hilo t').posicion = some q → q ≠ p := by
    rintro t' q hne hq hpos' rfl
    exact hne (h.distintas t' t q hpos' hpos hq)
  refine h.update (by rw [ht]; rfl) (fun _ => ?_)
    (fun t' hne => (h.bien t').congr fun q hq hpos' => ?_) fun q hq hposq t' hne hpos' => ?_
  · change (s.disco.aplicar (.descriptor p e)).archivos p = e
    rw [aplicar_descriptor_archivos _ hlock, Function.update_self]
  · have hqp := hotro t' q hne hq hpos'
    refine ⟨?_, Function.update_of_ne hqp _ _⟩
    change (s.disco.aplicar (.descriptor p e)).archivos q = s.disco.archivos q
    rw [aplicar_descriptor_archivos _ hlock, Function.update_of_ne hqp]
  · rw [Hilo.posicion, Option.some.injEq] at hposq
    exact hotro t' q hne hq hpos' hposq.symm

theorem reparto_paso {c c' : Estado ι} {e : Threads.Event ι Orden.Respuesta}
    (hnuevo : ∀ t, (nuevo t).Vivo) (h : Reparto nuevo c.memory c.thread)
    (hvigente : CopiaVigente c e) (hstep : hilos.Step c e c') :
    Reparto nuevo c'.memory c'.thread := by
  obtain ⟨k, s', hnext, hexec, rfl⟩ := hstep.cases
  rcases e with ⟨t, o, r⟩
  rcases ht : c.thread t with e | ⟨e, archivos, i⟩ | ⟨e, p⟩ | ⟨e, p⟩
  · simp only [ht] at hnext
    cases hnext
    exact reparto_copiar h ht hexec
  · simp only [ht] at hnext
    cases hnext
    exact reparto_probar h hnuevo ht hvigente hexec
  · simp only [ht] at hnext
    cases hnext
    exact reparto_escribir h ht hexec
  · simp only [ht] at hnext
    cases hnext

/-- However the threads take their turns, no two creations get one slot, and the entry of each
stays as it wrote it, as long as no slot is granted that was taken since the table was copied. -/
theorem altas_distintas {s : Pokedex} {nuevo : ι → OsadaFile} {c : Estado ι}
    {es : List (Threads.Event ι Orden.Respuesta)} (hnuevo : ∀ t, (nuevo t).Vivo)
    (h : Run (fun c e c' => CopiaVigente c e ∧ hilos.Step c e c') (comienzo s nuevo) es c) :
    (∀ t t' p, (c.thread t).posicion = some p → (c.thread t').posicion = some p → p < 2048 →
      t = t') ∧
    ∀ t e p, c.thread t = .hecha e p → p < 2048 →
      e = nuevo t ∧ c.memory.disco.archivos p = e := by
  have hreparto : Reparto nuevo c.memory c.thread :=
    h.invariant (I := fun c => Reparto nuevo c.memory c.thread)
      (fun c e c' hc hpaso => reparto_paso hnuevo hc hpaso.1 hpaso.2) (reparto_comienzo s nuevo)
  refine ⟨hreparto.distintas, fun t e p ht hp => ?_⟩
  have hbien := hreparto.bien t
  have hdes := hreparto.descriptor t
  rw [ht] at hbien hdes
  exact ⟨hdes, hbien hp⟩

end Reparto

/-- The entry of an empty file of thread `t`, each with its own name. -/
def entradaNueva (t : ℕ) : OsadaFile :=
  { OsadaFile.borrado with
    state := .regular, fname := [UInt8.ofNat (97 + t), 0], firstBlock := uint32Max }

theorem vivo_entradaNueva (t : ℕ) : (entradaNueva t).Vivo := by simp [entradaNueva, OsadaFile.Vivo]

/-- Two creations: the second one is done while the slot of the first is granted and not written. -/
theorem altas_distintas_chica : ∃ es c, Run
    (fun c e c' => CopiaVigente c e ∧ hilos.Step c e c')
    (comienzo (.inicial discoChico) entradaNueva) es c ∧
      c.thread 0 = .hecha (entradaNueva 0) 0 ∧ c.thread 1 = .hecha (entradaNueva 1) 1 ∧
      c.memory.disco.archivos 0 = entradaNueva 0 := by
  obtain ⟨es, c, hrun, hcero, huno⟩ : ∃ es c, Run
      (fun c e c' => CopiaVigente c e ∧ hilos.Step c e c')
      (comienzo (.inicial discoChico) entradaNueva) es c ∧
        c.thread 0 = .hecha (entradaNueva 0) 0 ∧ c.thread 1 = .hecha (entradaNueva 1) 1 :=
    ⟨[⟨0, .copiar, _⟩, ⟨0, .probar _ _, _⟩, ⟨1, .copiar, _⟩, ⟨1, .probar _ _, _⟩,
      ⟨1, .escribir _ _, _⟩, ⟨0, .escribir _ _, _⟩], _,
    .cons ⟨trivial, .mk rfl rfl⟩ (.cons ⟨fun _ _ => rfl, .mk rfl rfl⟩
      (.cons ⟨trivial, .mk rfl rfl⟩ (.cons ⟨fun _ _ => rfl, .mk rfl rfl⟩
        (.cons ⟨trivial, .mk rfl rfl⟩ (.cons ⟨trivial, .mk rfl rfl⟩ (.nil _)))))),
    rfl, rfl⟩
  exact ⟨es, c, hrun, hcero, huno,
    ((altas_distintas vivo_entradaNueva hrun).2 0 _ 0 hcero (by decide)).2⟩

/-- A creation that fits whole between the copy and the test of another one. -/
theorem no_toda_alta_distinta : ¬ ∀ (s : Pokedex) (nuevo : ℕ → OsadaFile) (c : Estado ℕ)
    (es : List (Threads.Event ℕ Orden.Respuesta)), (∀ t, (nuevo t).Vivo) →
    Run hilos.Step (comienzo s nuevo) es c → ∀ t t' p, c.thread t = .hecha (nuevo t) p →
      c.thread t' = .hecha (nuevo t') p → p < 2048 → t = t' := by
  intro h
  obtain ⟨es, c, hrun, hcero, huno⟩ : ∃ es c, Run hilos.Step
      (comienzo (.inicial discoChico) entradaNueva) es c ∧
        c.thread 0 = .hecha (entradaNueva 0) 0 ∧ c.thread 1 = .hecha (entradaNueva 1) 0 :=
    ⟨[⟨0, .copiar, _⟩, ⟨1, .copiar, _⟩, ⟨1, .probar _ _, _⟩, ⟨1, .escribir _ _, _⟩,
      ⟨0, .probar _ _, _⟩, ⟨0, .escribir _ _, _⟩], _,
    .cons (.mk rfl rfl) (.cons (.mk rfl rfl) (.cons (.mk rfl rfl) (.cons (.mk rfl rfl)
      (.cons (.mk rfl rfl) (.cons (.mk rfl rfl) (.nil _)))))), rfl, rfl⟩
  exact absurd (h _ _ c es vivo_entradaNueva hrun 0 1 0 hcero huno (by decide)) (by decide)

end Alta

end TpSo.Osada
