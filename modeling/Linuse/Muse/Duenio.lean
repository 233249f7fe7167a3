import Linuse.Muse.Alojamiento

/-!
# The owner of a frame

When a frame is replaced, the server looks for the page that is in it: it visits as many
positions of `client_socket` as there are tables, and in each the pages of the client
that is there. The owner of the frame is found if and only if it is the first page with
that frame in the positions up to its own, all of which have a table
(`buscarPaginaAsociadaAFrame_iff`). Positions and tables change at different moments, so
that this fails as soon as a client is connected and has not asked for anything.
-/

namespace Muse

open Memory Marked

variable {cfg : Configuracion}

/-- Some process has a table with a segment that has the page. -/
def Listada (s : Estado) (p : ℕ) : Prop :=
  ∃ sd segmentos, s.tablasSegmentos.get sd = some segmentos ∧ p ∈ s.paginasDe segmentos

/-- The pages of the client at a position; none if it has no table. -/
def paginasEn (s : Estado) (i : ℕ) : List ℕ := s.paginasDe ((s.segmentosDe i).getD [])

/-- The page is the first of the list with that frame number. -/
def Primera (s : Estado) (f : ℤ) (p : ℕ) (l : List ℕ) : Prop :=
  ∃ antes despues, l = antes ++ p :: despues ∧ ∀ q ∈ antes, s.enFrame f q = false

/-- The page is the first with its frame in the positions up to `i`, which is below the
number of tables, and there is a table in each of them. -/
structure HallableEn (s : Estado) (f : ℤ) (p i : ℕ) : Prop where
  visitada : i < cantidadTablas s
  conTabla : ∀ j ≤ i, (s.segmentosDe j).isSome
  primera : Primera s f p ((List.range (i + 1)).flatMap (paginasEn s))

/-! ## The search -/

/-- The search over some positions stops at the first one that has a page in the frame,
if it comes across no position without a table. -/
theorem buscarEnClientes_iff (s : Estado) (f : ℤ) (p : ℕ) (posiciones : List ℕ) :
    s.buscarEnClientes f posiciones = some (some p) ↔
      ∃ l i l', posiciones = l ++ i :: l' ∧ (∀ j ∈ l ++ [i], (s.segmentosDe j).isSome) ∧
        ((l ++ [i]).flatMap (paginasEn s)).find? (s.enFrame f) = some p := by
  induction posiciones with
  | nil => simp [Estado.buscarEnClientes]
  | cons i posiciones ih =>
      rw [Estado.buscarEnClientes]
      cases hseg : s.segmentosDe i with
      | none =>
          rw [Option.bind_none]
          constructor
          · intro h
            cases h
          rintro ⟨l, k, l', heq, htabla, _⟩
          have hi : i ∈ l ++ [k] := by
            cases l with
            | nil => cases heq; simp
            | cons j l => cases heq; simp
          have hsome := htabla i hi
          rw [hseg] at hsome
          cases hsome
      | some segmentos =>
          have hen : paginasEn s i = s.paginasDe segmentos := by rw [paginasEn, hseg]; rfl
          rw [Option.bind_some]
          cases hfind : (s.paginasDe segmentos).find? (s.enFrame f) with
          | none =>
              rw [Option.elim_none, ih]
              constructor
              · rintro ⟨l, k, l', rfl, htabla, hp⟩
                refine ⟨i :: l, k, l', rfl, ?_, ?_⟩
                · intro j hj
                  rcases List.mem_cons.1 hj with rfl | hj
                  · rw [hseg]
                    rfl
                  · exact htabla j hj
                · rw [List.cons_append, List.flatMap_cons, List.find?_append, hen, hfind, hp]
                  rfl
              · rintro ⟨l, k, l', heq, htabla, hp⟩
                cases l with
                | nil =>
                    cases heq
                    simp [hen, hfind] at hp
                | cons j l =>
                    cases heq
                    refine ⟨l, k, l', rfl, fun j hj => htabla j (List.mem_cons_of_mem _ hj), ?_⟩
                    rw [List.cons_append, List.flatMap_cons, List.find?_append, hen, hfind] at hp
                    exact hp
          | some q =>
              have hfirst : ∀ l, ((i :: l).flatMap (paginasEn s)).find? (s.enFrame f) = some q := by
                intro l
                rw [List.flatMap_cons, List.find?_append, hen, hfind]
                rfl
              rw [Option.elim_some]
              constructor
              · intro h
                cases h
                refine ⟨[], i, posiciones, rfl, ?_, hfirst []⟩
                intro j hj
                cases List.mem_singleton.1 hj
                rw [hseg]
                rfl
              · rintro ⟨l, k, l', heq, _, hp⟩
                have hhead : ∃ l'', l ++ [k] = i :: l'' := by
                  cases l with
                  | nil => cases heq; exact ⟨[], rfl⟩
                  | cons j l => cases heq; exact ⟨l ++ [k], rfl⟩
                obtain ⟨l'', hl''⟩ := hhead
                rw [hl'', hfirst l''] at hp
                cases hp
                rfl

/-- A position of a range, with the ones before it. -/
theorem range_eq_append_iff {n i : ℕ} {l l' : List ℕ} :
    List.range n = l ++ i :: l' → l = List.range i ∧ i < n := by
  intro h
  have hlen : n = l.length + (l'.length + 1) := by
    have := congrArg List.length h
    simpa using this
  have hl : l = List.range l.length := by
    have htake := congrArg (List.take l.length) h
    rw [List.take_range, List.take_left, Nat.min_eq_left (by omega)] at htake
    exact htake.symm
  have hi : i = l.length := by
    have hget := congrArg (fun x => x[l.length]?) h
    simp only [List.getElem?_append_right (Nat.le_refl _), Nat.sub_self, List.getElem?_cons_zero,
      List.getElem?_range (show l.length < n by omega), Option.some.injEq] at hget
    exact hget.symm
  rw [hi]
  exact ⟨hl, by omega⟩

/-- `buscarPaginaAsociadaAFrame` finds a page of the frame exactly when it is the first one
in the positions up to its own, and each of these has a table. -/
theorem buscarPaginaAsociadaAFrame_iff {s : Estado} {f : ℤ} {p : ℕ} (hp : s.enFrame f p = true) :
    s.buscarPaginaAsociadaAFrame f = some (some p) ↔ ∃ i, HallableEn s f p i := by
  have hfirst : ∀ l, l.find? (s.enFrame f) = some p ↔ Primera s f p l := by
    intro l
    rw [List.find?_eq_some_iff_append, Primera]
    constructor
    · rintro ⟨_, antes, despues, heq, hantes⟩
      exact ⟨antes, despues, heq, fun q hq => by simpa using hantes q hq⟩
    · rintro ⟨antes, despues, heq, hantes⟩
      exact ⟨hp, antes, despues, heq, fun q hq => by simp [hantes q hq]⟩
  rw [Estado.buscarPaginaAsociadaAFrame, buscarEnClientes_iff]
  constructor
  · rintro ⟨l, i, l', heq, htabla, hfind⟩
    obtain ⟨rfl, hi⟩ := range_eq_append_iff heq
    refine ⟨i, hi, fun j hj => htabla j ?_, ?_⟩
    · rw [← List.range_succ, List.mem_range]
      omega
    · rw [List.range_succ]
      exact (hfirst _).1 hfind
  · rintro ⟨i, hi, htabla, hprimera⟩
    refine ⟨List.range i, i, (List.range (cantidadTablas s)).drop (i + 1), ?_, ?_, ?_⟩
    · have htake : List.range i = (List.range (cantidadTablas s)).take i := by
        rw [List.take_range, Nat.min_eq_left (le_of_lt hi)]
      have hget : (List.range (cantidadTablas s))[i]? = some i := List.getElem?_range hi
      have hsplit := List.take_append_drop i (List.range (cantidadTablas s))
      rw [List.drop_eq_getElem_cons (by simpa using hi), List.getElem_range, ← htake] at hsplit
      exact hsplit.symm
    · intro j hj
      rw [← List.range_succ, List.mem_range] at hj
      exact htabla j (by omega)
    · rw [← List.range_succ]
      exact (hfirst _).2 hprimera

/-! ## Evictions -/

/-- The search finds the page of a table that is in memory in the frame. -/
def HallaDuenio (s : Estado) (f : ℤ) : Prop :=
  ∀ p, Listada s p → marco s p = some f → s.buscarPaginaAsociadaAFrame f = some (some p)

/-- The condition for it: the page is the first one with the frame in the positions up to
its own, which are below the number of tables and have a table. -/
def DuenioVisitado (s : Estado) (f : ℤ) : Prop :=
  ∀ p, Listada s p → marco s p = some f → ∃ i, HallableEn s f p i

theorem enFrame_of_marco {s : Estado} {p : ℕ} {f : ℤ} (h : marco s p = some f) :
    s.enFrame f p = true := by
  obtain ⟨pag, hpag, hpres⟩ := Option.bind_eq_some_iff.1 h
  split_ifs at hpres
  cases hpres
  rw [Estado.enFrame, hpag, Option.any_some]
  exact beq_self_eq_true _

theorem hallaDuenio_iff (s : Estado) (f : ℤ) : HallaDuenio s f ↔ DuenioVisitado s f := by
  constructor
  · intro h p hlista hp
    exact (buscarPaginaAsociadaAFrame_iff (enFrame_of_marco hp)).1 (h p hlista hp)
  · intro h p hlista hp
    exact (buscarPaginaAsociadaAFrame_iff (enFrame_of_marco hp)).2 (h p hlista hp)

/-- `asignarUnFrame` would replace this frame. -/
def Desaloja (cfg : Configuracion) (s : Estado) (f : ℕ) : Prop :=
  buscarFrameLibre s = none ∧ (clockModificado cfg s).1 = some f

/-- A property of the state and the frame of every eviction: of those of a run, and of the one
that asking for a frame at its end would be. -/
def EnDesalojos (cfg : Configuracion) (P : Estado → ℤ → Prop)
    (tr : List (Transition.Step Estado Evento)) (s : Estado) : Prop :=
  (∀ x ∈ tr, SinMarcas cfg (fun t e => ∀ f : ℕ, e = .reemplaza f → P t f) x) ∧
    ∀ f : ℕ, Desaloja cfg s f → P s f

/-- In a run, every eviction finds the owner of the frame if and only if at each of them the
owner is the first page with the frame in the positions up to its own, which are below the
number of tables and have a table. -/
theorem enDesalojos_hallaDuenio_iff {tr : List (Transition.Step Estado Evento)} {s : Estado} :
    Alcanza cfg tr s →
      (EnDesalojos cfg HallaDuenio tr s ↔ EnDesalojos cfg DuenioVisitado tr s) := by
  intro _
  have hP : HallaDuenio = DuenioVisitado := by
    funext s f
    exact propext (hallaDuenio_iff s f)
  rw [hP]

/-- `HallaDuenio` for every page that there is. -/
def HallaEn (s : Estado) (f : ℤ) : Prop :=
  ∀ p < s.paginas.length, marco s p = some f → s.buscarPaginaAsociadaAFrame f = some (some p)

instance (s : Estado) (f : ℤ) : Decidable (HallaEn s f) :=
  inferInstanceAs (Decidable (∀ p < s.paginas.length, _))

theorem HallaEn.hallaDuenio {s : Estado} {f : ℤ} (h : HallaEn s f) : HallaDuenio s f := by
  intro p _ hp
  refine h p ?_ hp
  by_contra hlargo
  rw [marco, List.getElem?_eq_none (not_lt.1 hlargo)] at hp
  cases hp

/-- A client that is connected and asks for nothing, and another one with a block. -/
def unClienteSinTabla : List Evento :=
  [.conecta 4, .conecta 5, .pide 5 .init, .pide 5 (.alloc 20)]

theorem not_hallaDuenio_unClienteSinTabla : ¬ EnDesalojos (unFrame 2) HallaDuenio
    (Transition.trace (siguienteEstado (unFrame 2)) (inicial (unFrame 2)) unClienteSinTabla)
    (Transition.final (siguienteEstado (unFrame 2)) (inicial (unFrame 2)) unClienteSinTabla) := by
  intro h
  have hbuscar := h.2 0 ⟨by decide +kernel, by decide +kernel⟩ 0
    ⟨5, [0], by decide +kernel, by decide +kernel⟩ (by decide +kernel)
  exact absurd hbuscar (by decide +kernel)

/-- The block of the second client replaces the one of the first, whose position has a table; and
the search visits the client without one. -/
theorem enDesalojos_hallaDuenio_dosClientes :
    EnDesalojos (unFrame 2) DuenioVisitado
        (Transition.trace (siguienteEstado (unFrame 2)) (inicial (unFrame 2))
          (unBloquePorCliente [4, 5]))
        (Transition.final (siguienteEstado (unFrame 2)) (inicial (unFrame 2))
          (unBloquePorCliente [4, 5])) ∧
      ¬ EnDesalojos (unFrame 2) DuenioVisitado
        (Transition.trace (siguienteEstado (unFrame 2)) (inicial (unFrame 2)) unClienteSinTabla)
        (Transition.final (siguienteEstado (unFrame 2)) (inicial (unFrame 2))
          unClienteSinTabla) := by
  have hiff {eventos : List Evento} (h : Transition.acceptsAll (siguienteEstado (unFrame 2))
      (inicial (unFrame 2)) eventos = true) :=
    enDesalojos_hallaDuenio_iff (alcanza_of_acceptsAll (unFrame 2) eventos h)
  refine ⟨(hiff (by decide +kernel)).1 ⟨sinMarcas_of_marcasDe (unFrame 2) ?_, fun f hf => ?_⟩,
    fun h => not_hallaDuenio_unClienteSinTabla ((hiff (by decide +kernel)).2 h)⟩
  · have hmarcas : ∀ mk ∈ marcasDe (unFrame 2) (inicial (unFrame 2)) (unBloquePorCliente [4, 5]),
        mk.2 = .reemplaza 0 ∧ HallaEn mk.1 0 ∨ mk.2 = .aSwap 0 := by
      decide +kernel
    rintro mk hmk f hf
    rcases hmarcas mk hmk with ⟨heq, hhalla⟩ | heq
    · obtain rfl : 0 = f := Suceso.reemplaza.inj (heq.symm.trans hf)
      exact hhalla.hallaDuenio
    · cases heq.symm.trans hf
  · have hcero : (clockModificado (unFrame 2) (Transition.final (siguienteEstado (unFrame 2))
        (inicial (unFrame 2)) (unBloquePorCliente [4, 5]))).1 = some 0 := by
      decide +kernel
    obtain rfl : 0 = f := Option.some.inj (hcero.symm.trans hf.2)
    exact HallaEn.hallaDuenio (by decide +kernel)

/-- The search visits the client without a table and fails. -/
theorem not_enDesalojos_hallaDuenio : ¬ ∀ cfg tr s, Alcanza cfg tr s →
    EnDesalojos cfg HallaDuenio tr s := by
  intro h
  exact not_hallaDuenio_unClienteSinTabla
    (h (unFrame 2) _ _ (alcanza_of_acceptsAll (unFrame 2) unClienteSinTabla (by decide +kernel)))

end Muse
