import Linuse.Muse.Alojamiento

/-!
# When a client leaves

`museclose` removes nothing, and the end of a connection only takes the client out of
`client_socket`. A client that leaves gives back what it had exactly when it never had
a table of segments, that is, when it never asked for `museinit`
(`recuperados_iff`).
-/

namespace Muse

open Memory Marked

variable {cfg : Configuracion} {ok : Estado → Suceso → Prop}

/-- The pages of a client. -/
def paginasCliente (s : Estado) (sd : ℕ) : List ℕ :=
  (s.tablasSegmentos.get sd).elim [] s.paginasDe

/-- A page of the client is in this frame. -/
def UsaFrame (s : Estado) (sd : ℕ) (f : ℤ) : Prop :=
  ∃ p ∈ paginasCliente s sd, ∃ pag : Pagina, s.paginas[p]? = some pag ∧ pag.presencia = true ∧
    pag.numeroFrame = f

/-- A page of the client has this slot. -/
def UsaRanura (s : Estado) (sd i : ℕ) : Prop :=
  ∃ p ∈ paginasCliente s sd, ∃ pag : Pagina, s.paginas[p]? = some pag ∧ pag.indiceSwap = i

/-- What the client had in the first state is given back in the second: the frames and
the slots that only it used are free, it has no table and gets an empty one when it
connects again, and the frames and the slots of the others are as they were. -/
structure Recuperados (s : Estado) (sd : ℕ) (s' : Estado) : Prop where
  frames : ∀ f, UsaFrame s sd f → (∀ sd', sd' ≠ sd → ¬ UsaFrame s sd' f) →
    ∃ fr, s'.frame f = some fr ∧ fr.estaLibre = true
  ranuras : ∀ i, UsaRanura s sd i → (∀ sd', sd' ≠ sd → ¬ UsaRanura s sd' i) →
    s'.bitmapSwap[i]? = some false
  tabla : s'.tablasSegmentos.get sd = none
  nuevo : ∀ r s'' marcas, Runs (museinit sd) s' r s'' marcas →
    s''.tablasSegmentos.get sd = some []
  otrosFrames : ∀ sd', sd' ≠ sd → ∀ f, UsaFrame s sd' f → s'.frame f = s.frame f
  otrasRanuras : ∀ sd', sd' ≠ sd → ∀ i, UsaRanura s sd' i →
    s'.bitmapSwap[i]? = s.bitmapSwap[i]?

/-- The event is the `museclose` of the client or the end of its connection. -/
def SeVa (s : Estado) (sd : ℕ) (e : Evento) : Prop :=
  e = .pide sd .close ∨ ∃ i, e = .desconecta i ∧ s.clientSocket[i]? = some sd

theorem seVa_close (s : Estado) (sd : ℕ) : SeVa s sd (.pide sd .close) := Or.inl rfl

/-- All marks are allowed. -/
def TodaMarca (_ : Estado) (_ : Suceso) : Prop := True

/-! ## Who has a table -/

/-- Whether a client has a table does not change but for `museinit`. -/
theorem tieneTabla_invariante (sd : ℕ) (b : Bool) :
    Invariante cfg ok fun s => (s.tablasSegmentos.get sd).isSome = b := by
  have h : DeTablas fun s => (s.tablasSegmentos.get sd).isSome = b := by
    intro s s' ht _ hs
    rw [ht]
    exact hs
  refine ⟨h.conservado, fun p => ?_, fun _ _ _ _ hs => hs, fun _ _ hs => hs, ?_⟩
  · exact triple_conseq (h.deSegmentos.keeps_traerPagina cfg p) (fun _ hs => hs.1) fun _ _ hs => hs
  · intro s sd' segmentos g hs hget _
    rw [Estado.ponerTabla, Dictionary.get_put]
    split_ifs with heq
    · subst heq
      rw [hget] at hs
      exact hs
    · exact hs

/-- After a `museinit` the client has a table. -/
theorem tieneTabla_museinit (sd : ℕ) :
    Triple ok (fun _ => True) (paso cfg (.pide sd .init)) fun _ s =>
      (s.tablasSegmentos.get sd).isSome = true := by
  have hinit : Triple ok (fun _ => True) (museinit sd) fun _ s =>
      (s.tablasSegmentos.get sd).isSome = true := by
    refine triple_bind (triple_true _) fun s => triple_bind (Q := fun _ s =>
      (s.tablasSegmentos.get sd).isSome = true) (triple_modify _ fun s _ => ?_) fun _ =>
        triple_pure _ fun _ hs => hs
    split_ifs with hget
    · exact hget
    · rw [Estado.ponerTabla, Dictionary.get_put_self]
      rfl
  refine triple_bind (triple_true _) fun s => triple_ite (fun _ => triple_fail) fun _ => ?_
  exact triple_bind hinit fun _ => triple_pure _ fun _ hs => hs

/-- The clients that have a table are those that asked for `museinit`. -/
theorem tieneTabla_iff {tr : List (Transition.Step Estado Evento)} {s : Estado}
    (hrun : Alcanza cfg tr s) (sd : ℕ) :
    (s.tablasSegmentos.get sd).isSome = true ↔ ∃ x ∈ tr, x.label = .pide sd .init := by
  have hinv := hrun.invariant_trace (fun tr s => Tablas s ∧
    ((s.tablasSegmentos.get sd).isSome = true ↔ ∃ x ∈ tr, x.label = .pide sd .init)) ?_ ?_
  · exact hinv.2
  · exact ⟨tablas_inicial cfg, by simp [inicial]⟩
  · rintro tr s e s' _ ⟨htablas, hiff⟩ ⟨r, marcas, hr⟩
    have hok : ∀ mk ∈ marcas, TodaMarca mk.1 mk.2 := fun _ _ => trivial
    refine ⟨keeps_paso tablas_invariante (fun _ hs => hs) e
      (fun s l hs => tablas_deTablas s _ rfl rfl hs) (fun _ _ _ hs _ => tablas_ponerTabla_nil hs)
      s r s' marcas htablas hr hok, ?_⟩
    by_cases he : e = .pide sd .init
    · subst he
      have hpost := tieneTabla_museinit sd s r s' marcas trivial hr hok
      simp [hpost]
    · have hsame := (keeps_paso ((tieneTabla_invariante sd
          (s.tablasSegmentos.get sd).isSome).and tablas_invariante) (fun _ hs => hs.2) e
        (fun s l hs => ⟨hs.1, tablas_deTablas s _ rfl rfl hs.2⟩) ?_ s r s' marcas
        ⟨rfl, htablas⟩ hr hok).1
      · rw [hsame, hiff]
        simp [he]
      · intro u sd' hinit hu _
        have hne : sd ≠ sd' := by
          rintro rfl
          exact he hinit
        refine ⟨?_, tablas_ponerTabla_nil hu.2⟩
        rw [Estado.ponerTabla, Dictionary.get_put_of_ne _ _ hne]
        exact hu.1

/-! ## What is given back -/

/-- A client that leaves changes the list of clients only. -/
theorem seVa_eq {s s' : Estado} {sd : ℕ} {e : Evento} {r : Respuesta}
    {marcas : List (Estado × Suceso)} (he : SeVa s sd e) (hr : Runs (paso cfg e) s r s' marcas) :
    ∃ l, s' = { s with clientSocket := l } := by
  have hpaso : Triple TodaMarca (· = s) (paso cfg e) fun _ s' =>
      ∃ l, s' = { s with clientSocket := l } := by
    rcases he with rfl | ⟨i, rfl, _⟩
    · refine exec_gets (triple_ite (fun _ => triple_fail) fun _ => ?_)
      refine exec_bind (Q := fun _ s' => s' = s) ?_ fun _ s' hs' => ?_
      · exact triple_ite (fun _ => triple_fail) fun _ => exec_pure rfl
      · exact exec_pure ⟨s.clientSocket, hs'⟩
    · refine exec_gets (triple_ite (fun _ => triple_fail) fun _ => exec_modify (exec_pure ?_))
      exact ⟨_, rfl⟩
  exact hpaso s r s' marcas rfl hr fun _ _ => trivial

theorem recuperados_iff_tabla {s : Estado} (l : List ℕ) (sd : ℕ) :
    Recuperados s sd { s with clientSocket := l } ↔ s.tablasSegmentos.get sd = none := by
  constructor
  · exact fun h => h.tabla
  · intro hnone
    have hpaginas : paginasCliente s sd = [] := by rw [paginasCliente, hnone, Option.elim_none]
    constructor
    · rintro f ⟨p, hp, _⟩
      rw [hpaginas] at hp
      cases hp
    · rintro i ⟨p, hp, _⟩
      rw [hpaginas] at hp
      cases hp
    · exact hnone
    · intro r s'' marcas hr
      have hinit : Triple TodaMarca (fun u => u.tablasSegmentos.get sd = none)
          (museinit sd) fun _ u => u.tablasSegmentos.get sd = some [] := by
        refine triple_bind (keeps_gets _) fun u => triple_bind (Q := fun _ u =>
          u.tablasSegmentos.get sd = some []) (triple_modify _ fun u hu => ?_) fun _ =>
            triple_pure _ fun _ hu => hu
        rw [if_neg (by rw [hu]; simp), Estado.ponerTabla, Dictionary.get_put_self]
      exact hinit { s with clientSocket := l } r s'' marcas hnone hr fun _ _ => trivial
    · exact fun _ _ _ _ => rfl
    · exact fun _ _ _ _ => rfl

/-- A client that leaves gives back what it had exactly when it never asked for
`museinit`. -/
theorem recuperados_iff {tr : List (Transition.Step Estado Evento)} {s s' : Estado} {sd : ℕ}
    {e : Evento} {r : Respuesta} {marcas : List (Estado × Suceso)} (hrun : Alcanza cfg tr s)
    (he : SeVa s sd e) (hr : Runs (paso cfg e) s r s' marcas) :
    Recuperados s sd s' ↔ ∀ x ∈ tr, x.label ≠ .pide sd .init := by
  obtain ⟨l, rfl⟩ := seVa_eq he hr
  rw [recuperados_iff_tabla, ← Option.not_isSome_iff_eq_none, tieneTabla_iff hrun]
  simp

/-- A client has a block; another one asks for memory without `museinit`, and gets none. -/
def sinTabla : List Evento :=
  unBloquePorCliente [4] ++ [.conecta 5, .pide 5 (.alloc 8), .pide 5 (.free 12)]

/-- The second client gives back all that it had, and the first one does not. -/
theorem recuperados_iff_sinTabla :
    (∃ r s' marcas, Runs (paso (unFrame 2) (.pide 5 .close)) (Transition.final
      (siguienteEstado (unFrame 2)) (inicial (unFrame 2)) sinTabla) r s' marcas ∧
        Recuperados (Transition.final (siguienteEstado (unFrame 2)) (inicial (unFrame 2))
          sinTabla) 5 s') ∧
      ∃ r s' marcas, Runs (paso (unFrame 2) (.pide 4 .close)) (Transition.final
        (siguienteEstado (unFrame 2)) (inicial (unFrame 2)) sinTabla) r s' marcas ∧
          ¬ Recuperados (Transition.final (siguienteEstado (unFrame 2)) (inicial (unFrame 2))
            sinTabla) 4 s' := by
  have hrun := alcanza_of_acceptsAll (unFrame 2) sinTabla (by decide +kernel)
  have hcierra : ∀ sd, sd = 4 ∨ sd = 5 → (paso (unFrame 2) (.pide sd .close) (Transition.final
      (siguienteEstado (unFrame 2)) (inicial (unFrame 2)) sinTabla)).isSome = true := by
    rintro sd (rfl | rfl) <;> decide +kernel
  have hpide := fun sd => Transition.forall_label_trace_iff (siguienteEstado (unFrame 2))
    (fun e => e ≠ .pide sd .init) (inicial (unFrame 2)) sinTabla
  constructor
  · obtain ⟨⟨r, s', marcas⟩, hr⟩ := Option.isSome_iff_exists.1 (hcierra 5 (.inr rfl))
    refine ⟨r, s', marcas, hr, (recuperados_iff hrun (seVa_close _ 5) hr).2 ((hpide 5).2 ?_)⟩
    simp [sinTabla, unBloquePorCliente]
  · obtain ⟨⟨r, s', marcas⟩, hr⟩ := Option.isSome_iff_exists.1 (hcierra 4 (.inl rfl))
    refine ⟨r, s', marcas, hr, (recuperados_iff hrun (seVa_close _ 4) hr).not.2
      ((hpide 4).not.2 ?_)⟩
    simp [sinTabla, unBloquePorCliente]

theorem not_recuperados_of_tabla {s s' : Estado} {sd : ℕ} {e : Evento} {r : Respuesta}
    {marcas : List (Estado × Suceso)} (htabla : (s.tablasSegmentos.get sd).isSome = true)
    (he : SeVa s sd e) (hr : Runs (paso cfg e) s r s' marcas) : ¬ Recuperados s sd s' := by
  obtain ⟨l, rfl⟩ := seVa_eq he hr
  intro h
  rw [(recuperados_iff_tabla l sd).1 h] at htabla
  cases htabla

/-- The table of a client that closes stays, with its block. -/
theorem not_recuperados : ¬ ∀ cfg tr s sd e r s' marcas, Alcanza cfg tr s → SeVa s sd e →
    Runs (paso cfg e) s r s' marcas → Recuperados s sd s' := by
  intro h
  have hrun := alcanza_of_acceptsAll (unFrame 2) (unBloquePorCliente [4]) (by decide +kernel)
  have hsome : (paso (unFrame 2) (.pide 4 .close) (Transition.final (siguienteEstado (unFrame 2))
      (inicial (unFrame 2)) (unBloquePorCliente [4]))).isSome = true := by decide +kernel
  have htabla : ((Transition.final (siguienteEstado (unFrame 2)) (inicial (unFrame 2))
      (unBloquePorCliente [4])).tablasSegmentos.get 4).isSome = true := by decide +kernel
  obtain ⟨⟨r, s', marcas⟩, hr⟩ := Option.isSome_iff_exists.1 hsome
  exact not_recuperados_of_tabla htabla (seVa_close _ 4) hr
    (h (unFrame 2) _ _ 4 _ r s' marcas hrun (seVa_close _ 4) hr)

end Muse
