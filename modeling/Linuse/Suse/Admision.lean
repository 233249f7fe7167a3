import Linuse.Suse.Clientes
import Linuse.Suse.Conservacion
import Mathlib.Data.List.Find

/-!
# Requests and the admission of the main thread

A program's requests can be handled before `planificarReady` has admitted its
main thread: until then it has no running thread and no ready list. A handler
dereferences a NULL `exec` or a missing ready list of the program that it serves
exactly when it handles a `schedule_next`, a close, or a wait on a semaphore
without units, of a program that has not been admitted (`rompe_iff`).

`Atendidos` ties what each library remembers to the scheduler: once the main
thread is admitted, the thread that the library runs is the one in `exec`; before,
it is the main thread, and that thread is the first of the program in New.
-/

namespace Suse

open Function (update update_self update_of_ne)
open Transition Fallible

variable {E : Type} {s s' : Estado E} {S : Set Puntero} {env : Entorno E} {pid : Pid}

/-- The first thread of the program that `planificarReady` will admit. -/
def primero (s : Estado E) (pid : Pid) : Option Puntero :=
  (contenido s .mano ++ contenido s .new).find? (esDelPrograma s pid)

theorem esDelPrograma_iff {x : Puntero} : esDelPrograma s pid x = true ↔ esHiloDe s pid x := by
  rw [esDelPrograma, esHiloDe, beq_iff_eq]
  cases identidad s x with
  | none => simp
  | some i =>
      rw [Option.map_some, Option.some_inj]
      constructor
      · rintro rfl
        exact ⟨i.2, rfl⟩
      · rintro ⟨tid, htid⟩
        rw [Option.some_inj] at htid
        rw [htid]

/-- What holds of a connected program whose library remembers `c`. -/
structure Atendido (s : Estado E) (pid : Pid) (c : Cliente) : Prop where
  conPrograma : tienePrograma s pid
  corre : ∀ tid, c.corre tid → tieneReady s pid →
    ∃ x, contenido s (.exec pid) = [x] ∧ identidad s x = some (pid, tid)
  principal : ∀ tid, c.corre tid → ¬ tieneReady s pid → tid = mainThreadId
  sinAdmitir : ¬ tieneReady s pid → ∀ l : Lugar, ∀ x ∈ contenido s l, esHiloDe s pid x →
    l.fase = .nuevo
  primero : ¬ tieneReady s pid → c.turno ≠ .iniciando →
    ∃ x, primero s pid = some x ∧ identidad s x = some (pid, mainThreadId)
  iniciando : c.turno = .iniciando →
    ¬ tieneReady s pid ∧ ∀ l : Lugar, ∀ x ∈ contenido s l, ¬ esHiloDe s pid x
  mutex : 0 < s.enMutex pid → c.turno = .esperando ∧ s.enMutex pid = 1 ∧ tieneReady s pid

/-- Every connected program is attended, and no call is parked for a program that
is not connected. -/
structure Atendidos (c : Conectados E) : Prop where
  coherente : ∃ S, Coherente c.estado S
  cliente : ∀ pid cliente, c.clientes pid = some cliente → Atendido c.estado pid cliente
  ausente : ∀ pid, c.clientes pid = none → c.estado.enMutex pid = 0

/-! ## Frames -/

theorem esHiloDe_congr {x : Puntero} (h : identidad s' x = identidad s x) :
    esHiloDe s' pid x ↔ esHiloDe s pid x := by
  rw [esHiloDe, esHiloDe, h]

theorem primero_congr (hid : ∀ x, identidad s' x = identidad s x)
    (hcola : contenido s' .mano ++ contenido s' .new = contenido s .mano ++ contenido s .new) :
    primero s' pid = primero s pid := by
  have hes : esDelPrograma s' pid = esDelPrograma s pid := by
    funext x
    simp only [esDelPrograma, hid]
  rw [primero, primero, hes, hcola]

theorem Deja.primero (h : Deja pid s s') (hid : ∀ x, identidad s' x = identidad s x) :
    primero s' pid = primero s pid := by
  apply primero_congr hid
  simp only [contenido, h.new, h.mano]

/-- A movement that admits nobody. -/
def SinAdmitir (F : Lugar → Lugar → Prop) : Prop :=
  ∀ l l', F l l' → l.fase = .nuevo → l'.fase = .nuevo

theorem mismaFase_sinAdmitir : SinAdmitir Lugar.MismaFase :=
  fun _ _ h hl => h.symm.trans hl

theorem cierra_sinAdmitir : SinAdmitir Lugar.Cierra := by
  rintro l l' (h | ⟨pid, rfl, rfl⟩) hl
  · exact h.symm.trans hl
  · cases hl

/-- Where a thread of the program stood before a movement that admits nobody. -/
theorem Mueve.fase {F : Lugar → Lugar → Prop} {pierde : Prop} (hm : Mueve F pierde s s')
    (hF : SinAdmitir F)
    (h : ∀ l : Lugar, ∀ x ∈ contenido s l, esHiloDe s pid x → l.fase = .nuevo) :
    ∀ l : Lugar, ∀ x ∈ contenido s' l, esHiloDe s' pid x → l.fase = .nuevo := by
  intro l x hx hes
  rw [esHiloDe_congr (hm.identidad x)] at hes
  refine hm.moves.keeps (fun x l => esHiloDe s pid x → l.fase = .nuevo) ?_
    (fun x l hx => h l x hx) x l hx hes
  rintro x l l' ⟨hmay, -⟩ hl hes
  exact hF l l' hmay (hl hes)

namespace Atendido

variable {c c' : Cliente} {F : Lugar → Lugar → Prop} {pierde : Prop}

/-- A thread of the program in an admitted place means that it has a ready
list. -/
theorem tieneReady_of_mem (h : Atendido s pid c) {l : Lugar} {x : Puntero}
    (hx : x ∈ contenido s l) (hes : esHiloDe s pid x) (hl : l.fase ≠ .nuevo) :
    tieneReady s pid := by
  by_contra hno
  exact hl (h.sinAdmitir hno l x hx hes)

/-- A movement that admits nobody, and leaves the program's turn or makes it
ask for the next thread. -/
theorem mueve (h : Atendido s pid c) (hm : Mueve F pierde s s') (hF : SinAdmitir F)
    (hprimero : Suse.primero s' pid = Suse.primero s pid)
    (hready : tieneReady s' pid ↔ tieneReady s pid) (hmutex : s'.enMutex pid = s.enMutex pid)
    (hcorre : ∀ tid, c'.corre tid →
      c.corre tid ∧ contenido s' (.exec pid) = contenido s (.exec pid))
    (hini : c'.turno = .iniciando ↔ c.turno = .iniciando)
    (hesp : c.turno = .esperando → c'.turno = .esperando) : Atendido s' pid c' where
  conPrograma := (hm.conPrograma pid).2 h.conPrograma
  corre := by
    intro tid hc hr
    obtain ⟨hc', hexec⟩ := hcorre tid hc
    obtain ⟨x, hx, hid⟩ := h.corre tid hc' (hready.1 hr)
    exact ⟨x, hexec.trans hx, (hm.identidad x).trans hid⟩
  principal := fun tid hc hr => h.principal tid (hcorre tid hc).1 (hready.not.1 hr)
  sinAdmitir := fun hr => hm.fase hF (h.sinAdmitir (hready.not.1 hr))
  primero := by
    intro hr hturno
    obtain ⟨x, hx, hid⟩ := h.primero (hready.not.1 hr) (hini.not.1 hturno)
    exact ⟨x, hprimero.trans hx, (hm.identidad x).trans hid⟩
  iniciando := by
    intro hturno
    obtain ⟨hr, hnadie⟩ := h.iniciando (hini.1 hturno)
    refine ⟨hready.not.2 hr, fun l x hx hes => ?_⟩
    obtain ⟨l₀, hx₀, -⟩ := hm.moves.origin hx
    exact hnadie l₀ x hx₀ ((esHiloDe_congr (hm.identidad x)).1 hes)
  mutex := by
    intro hpos
    rw [hmutex] at hpos ⊢
    obtain ⟨hturno, huno, hr⟩ := h.mutex hpos
    exact ⟨hesp hturno, huno, hready.2 hr⟩

/-- An event that is not about the program. -/
theorem ajeno (h : Atendido s pid c) (hm : Mueve F pierde s s') (hF : SinAdmitir F)
    (hd : DejaExec pid s s') : Atendido s' pid c :=
  h.mueve hm hF (hd.primero hm.identidad) hd.conReady hd.enMutex (fun _ hc => ⟨hc, hd.exec⟩)
    Iff.rfl fun hc => hc

/-- A request after which the library asks for the next thread. -/
theorem cede (h : Atendido s pid c) (hm : Mueve F pierde s s') (hF : SinAdmitir F)
    (hd : Deja pid s s') (hc : c.corriendo) :
    Atendido s' pid { c with turno := .cediendo } := by
  obtain ⟨tid, hc⟩ := hc
  have hturno : c.turno = .corriendo tid := hc
  refine h.mueve hm hF (hd.primero hm.identidad) hd.conReady hd.enMutex ?_ ?_ ?_
  · rintro tid' ⟨⟩
  · simp [hturno]
  · simp [hturno]

/-- The answer to `schedule_next`, or its parking. -/
theorem elige (h : Atendido s pid c) (hm : Mueve F pierde s s') {r : Option Tid}
    (he : Elige pid r s s')
    (hmutex : r ≠ none → s'.enMutex pid = 0) (hmutex' : r = none → s'.enMutex pid = 1) :
    Atendido s' pid (c.contestado r) where
  conPrograma := (hm.conPrograma pid).2 h.conPrograma
  corre := by
    intro tid hc _
    cases r with
    | none => cases hc
    | some t =>
        have ht : t = tid := by simpa [Cliente.corre, Cliente.contestado] using hc
        exact he.contesta tid (by rw [ht])
  principal := fun _ _ hr => absurd he.conReady.2 hr
  sinAdmitir := fun hr => absurd he.conReady.2 hr
  primero := fun hr => absurd he.conReady.2 hr
  iniciando := by
    intro hturno
    cases r <;> cases hturno
  mutex := by
    intro hpos
    cases r with
    | none => exact ⟨rfl, hmutex' rfl, he.conReady.2⟩
    | some t =>
        rw [hmutex (by simp)] at hpos
        exact absurd hpos (lt_irrefl 0)

/-! ### Connections, creations and admissions -/

/-- A connection with a descriptor of which nothing is left. -/
theorem conectar (hC : Coherente s S) (hp : s.diccionarioDeProgramas.get pid = none)
    (hmutex : s.enMutex pid = 0)
    (hnadie : ∀ l : Lugar, ∀ x ∈ contenido s l, ¬ esHiloDe s pid x) :
    Atendido (crearPrograma s pid) pid .inicial where
  conPrograma := ⟨_, Dictionary.get_put_self _ _ _⟩
  corre := by rintro tid ⟨⟩
  principal := by rintro tid ⟨⟩
  sinAdmitir := by
    intro _ l x hx hes
    rw [contenido_conectar hp] at hx
    exact absurd hes (hnadie l x hx)
  primero := fun _ hturno => absurd rfl hturno
  iniciando := by
    intro _
    constructor
    · intro hr
      obtain ⟨p, hp'⟩ := hC.readyConPrograma pid hr
      rw [hp] at hp'
      cases hp'
    · intro l x hx
      rw [contenido_conectar hp] at hx
      exact hnadie l x hx
  mutex := by
    intro hpos
    have hpos' : 0 < s.enMutex pid := hpos
    rw [hmutex] at hpos'
    exact absurd hpos' (lt_irrefl 0)

theorem conectar_ajeno {pid' : Pid} (h : Atendido s pid c) (hne : pid ≠ pid')
    (hp : s.diccionarioDeProgramas.get pid' = none) :
    Atendido (crearPrograma s pid') pid c where
  conPrograma := by
    obtain ⟨p, hp'⟩ := h.conPrograma
    exact ⟨p, by simp [crearPrograma, Dictionary.get_put_of_ne _ _ hne, hp']⟩
  corre := by
    rw [contenido_conectar hp]
    exact h.corre
  principal := h.principal
  sinAdmitir := by
    rw [contenido_conectar hp]
    exact h.sinAdmitir
  primero := by
    rw [Suse.primero, contenido_conectar hp]
    exact h.primero
  iniciando := by
    rw [contenido_conectar hp]
    exact h.iniciando
  mutex := h.mutex

end Atendido

theorem tieneReady_crearHilo (pid : Pid) {pid' : Pid} {tid : Tid} {basura : ℕ × ℕ} {ahora : ℕ}
    (hs : crearHilo env s pid' tid basura ahora = .ok s') :
    (tieneReady s' pid ↔ tieneReady s pid) ∧ s'.enMutex = s.enMutex ∧
      (tienePrograma s pid → tienePrograma s' pid) := by
  obtain ⟨p, hp, rfl⟩ := crearHilo_ok hs
  refine ⟨Iff.rfl, rfl, fun h => (tienePrograma_ponerPrograma (p := p) hp pid).2 h⟩

/-- Who is in a place after a creation. -/
theorem mem_crearHilo {pid' : Pid} {tid : Tid} {basura : ℕ × ℕ} {ahora : ℕ}
    (hC : Coherente s S) (hs : crearHilo env s pid' tid basura ahora = .ok s') {l : Lugar}
    {x : Puntero} (hx : x ∈ contenido s' l) :
    (x ∈ contenido s l ∧ identidad s' x = identidad s x) ∨
      (x = s.proximo ∧ l = .new ∧ identidad s' x = some (pid', tid)) := by
  have hid := identidad_crearHilo hs x
  rw [contenido_crearHilo hs] at hx
  have hviejo : x ∈ contenido s l → identidad s' x = identidad s x := by
    intro hx
    rw [hid, if_neg (Nat.ne_of_lt (hC.lt_proximo hx))]
  by_cases hl : l = .new
  · subst hl
    rw [update_self, List.mem_append, List.mem_singleton] at hx
    rcases hx with hx | rfl
    · exact Or.inl ⟨hx, hviejo hx⟩
    · exact Or.inr ⟨rfl, rfl, by rw [hid, if_pos rfl]⟩
  · rw [update_of_ne hl] at hx
    exact Or.inl ⟨hx, hviejo hx⟩

theorem primero_crearHilo (pid : Pid) {pid' : Pid} {tid : Tid} {basura : ℕ × ℕ} {ahora : ℕ}
    (hC : Coherente s S) (hs : crearHilo env s pid' tid basura ahora = .ok s') :
    primero s' pid =
      (primero s pid).or (if pid' = pid then some s.proximo else none) := by
  have hid := identidad_crearHilo hs
  have hcont := contenido_crearHilo hs
  have hviejos : (contenido s .mano ++ contenido s .new).find? (esDelPrograma s' pid) =
      (contenido s .mano ++ contenido s .new).find? (esDelPrograma s pid) := by
    apply List.find?_congr
    intro x hx
    have hlt : x < s.proximo := by
      rcases List.mem_append.1 hx with hx | hx
      · exact hC.lt_proximo hx
      · exact hC.lt_proximo hx
    rw [esDelPrograma, esDelPrograma, hid, if_neg (Nat.ne_of_lt hlt)]
  have hnuevo : [s.proximo].find? (esDelPrograma s' pid) =
      if pid' = pid then some s.proximo else none := by
    by_cases hpid : pid' = pid <;> simp [esDelPrograma, hid, hpid]
  rw [primero, hcont, update_self, update_of_ne (by simp), ← List.append_assoc,
    List.find?_append, hviejos, hnuevo, primero]

/-- Where another thread stood before `planificarReady` admitted the one in its hand. -/
theorem mem_admitir_of_ne {ahora : ℕ} {x y : Puntero} {l : Lugar} (hC : Coherente s S)
    (hs : planificarReadyAdmitir s ahora = .ok s') (hmano : s.unHilo = some x) (hne : y ≠ x)
    (hy : y ∈ contenido s' l) : y ∈ contenido s l := by
  obtain ⟨x', hilo, p, hmano', -, hh, hp, hs⟩ := planificarReadyAdmitir_ok hs
  rw [hmano, Option.some_inj] at hmano'
  subst hmano'
  obtain ⟨-, hcont⟩ := sacarDeMano_quieto hmano hh hp
  obtain ⟨pid₁, l₁, hl₁, -, hcont₁⟩ := pasarAReady_contenido hs (by
    intro pid' he
    rw [hcont, update_of_ne (by simp)] at he
    exact hC.execConReady pid' he)
  have hy' : y ∈ contenido (sacarDeMano s hilo.pid p) l := by
    rw [hcont₁] at hy
    by_cases hl : l = l₁
    · subst hl
      rw [update_self, List.mem_append, List.mem_singleton] at hy
      exact hy.resolve_right hne
    · rwa [update_of_ne hl] at hy
  rw [hcont] at hy'
  by_cases hl : l = .mano
  · subst hl
    rw [update_self] at hy'
    cases hy'
  · rwa [update_of_ne hl] at hy'

/-- An admission that does not create the ready list of the program leaves its running thread,
and New, as they were. -/
theorem admitir_dejaExec {ahora : ℕ} {x : Puntero} {pid' : Pid} {tid : Tid}
    (hs : planificarReadyAdmitir s ahora = .ok s') (hmano : s.unHilo = some x)
    (hid : identidad s x = some (pid', tid)) (hready : pid' = pid → tieneReady s pid) :
    (tieneReady s' pid ↔ tieneReady s pid) ∧
      contenido s' (.exec pid) = contenido s (.exec pid) ∧ s'.new = s.new ∧
      s'.unHilo = none ∧ s'.enMutex pid = s.enMutex pid := by
  obtain ⟨x', hilo, p, hmano', -, hh, hp, hs⟩ := planificarReadyAdmitir_ok hs
  rw [hmano, Option.some_inj] at hmano'
  subst hmano'
  rw [identidad_eq hh, Option.some_inj, Prod.mk.injEq] at hid
  obtain ⟨rfl, rfl⟩ := hid
  have hd : DejaExec pid (sacarDeMano s hilo.pid p) s' := pasarAReady_dejaExec hs hh hready
  obtain ⟨-, hcont⟩ := sacarDeMano_quieto hmano hh hp
  refine ⟨hd.conReady, ?_, hd.new, hd.mano, hd.enMutex⟩
  rw [hd.exec, hcont, update_of_ne (by simp)]

/-- The first thread of a program to be admitted is the one that it runs. -/
theorem admitir_aExec {ahora : ℕ} {x : Puntero} {tid : Tid}
    (hs : planificarReadyAdmitir s ahora = .ok s') (hmano : s.unHilo = some x)
    (hid : identidad s x = some (pid, tid)) (hno : ¬ tieneReady s pid) :
    tieneReady s' pid ∧ contenido s' (.exec pid) = [x] := by
  obtain ⟨x', hilo, p, hmano', -, hh, hp, hs⟩ := planificarReadyAdmitir_ok hs
  rw [hmano, Option.some_inj] at hmano'
  subst hmano'
  rw [identidad_eq hh, Option.some_inj, Prod.mk.injEq] at hid
  obtain ⟨rfl, rfl⟩ := hid
  obtain ⟨hilo', p', hh', hp', hcaso⟩ := pasarAReady_ok hs
  have heq : hilo' = hilo := by
    have hsome : s.hilos x = some hilo' := hh'
    rw [hh] at hsome
    exact (Option.some_inj.1 hsome).symm
  subst heq
  obtain ⟨-, rfl⟩ | ⟨l, hl, -⟩ := hcaso
  · exact ⟨by simp [tieneReady], by simp [contenido]⟩
  · exact absurd ⟨l, hl⟩ hno

namespace Atendido

variable {c c' : Cliente}

/-- A program that creates its main thread, or another one. -/
theorem crear {tid : Tid} {basura : ℕ × ℕ} {ahora : ℕ} (h : Atendido s pid c)
    (hC : Coherente s S) (hs : crearHilo env s pid tid basura ahora = .ok s')
    (hadm : c.Admite (.crear pid tid basura ahora)) :
    Atendido s' pid (c.sigue none (.crear pid tid basura ahora)) := by
  obtain ⟨hready, hmutex, hprog⟩ := tieneReady_crearHilo pid hs
  have hexec : contenido s' (.exec pid) = contenido s (.exec pid) := by
    rw [contenido_crearHilo hs, update_of_ne (by simp)]
  have hprimero := primero_crearHilo pid hC hs
  rw [if_pos rfl] at hprimero
  have hsin : ¬ tieneReady s' pid → ∀ l : Lugar, ∀ x ∈ contenido s' l, esHiloDe s' pid x →
      l.fase = .nuevo := by
    intro hr l x hx hes
    rcases mem_crearHilo hC hs hx with ⟨hx, hid⟩ | ⟨-, rfl, -⟩
    · exact h.sinAdmitir (hready.not.1 hr) l x hx ((esHiloDe_congr hid).1 hes)
    · rfl
  have hnuevo : identidad s' s.proximo = some (pid, tid) := by
    rw [identidad_crearHilo hs, if_pos rfl]
  by_cases hini : c.turno = .iniciando
  · -- the main thread
    have htid : tid = mainThreadId := by
      rcases hadm with ⟨-, htid⟩ | ⟨⟨tid', hc⟩, -⟩
      · exact htid
      · have hturno : c.turno = .corriendo tid' := hc
        rw [hini] at hturno
        cases hturno
    obtain ⟨hno, hnadie⟩ := h.iniciando hini
    have hvacio : Suse.primero s pid = none := by
      rw [Suse.primero, List.find?_eq_none]
      intro x hx hes
      rcases List.mem_append.1 hx with hx | hx
      · exact hnadie .mano x hx (esDelPrograma_iff.1 hes)
      · exact hnadie .new x hx (esDelPrograma_iff.1 hes)
    have hsigue : c.sigue none (.crear pid tid basura ahora) =
        { c with turno := .corriendo tid } := by
      rw [Cliente.sigue, if_pos hini]
    rw [hsigue]
    refine ⟨hprog h.conPrograma, fun _ _ hr => absurd hr (hready.not.2 hno), ?_, hsin, ?_, ?_, ?_⟩
    · intro tid' hc _
      have htid' : tid = tid' := by simpa [Cliente.corre] using hc
      rw [← htid', htid]
    · intro _ _
      refine ⟨s.proximo, ?_, by rw [hnuevo, htid]⟩
      rw [hprimero, hvacio]
      rfl
    · rintro ⟨⟩
    · intro hpos
      rw [hmutex] at hpos
      obtain ⟨hturno, -⟩ := h.mutex hpos
      rw [hini] at hturno
      cases hturno
  · have hsigue : c.sigue none (.crear pid tid basura ahora) =
        { c with nextId := c.nextId + 1 } := by
      rw [Cliente.sigue, if_neg hini]
    rw [hsigue]
    refine ⟨hprog h.conPrograma, ?_, fun tid' hc hr => h.principal tid' hc (hready.not.1 hr), hsin,
      ?_, fun hturno => absurd hturno hini, ?_⟩
    · intro tid' hc hr
      obtain ⟨x, hx, hid⟩ := h.corre tid' hc (hready.1 hr)
      have hmem : x ∈ contenido s (.exec pid) := by simp [hx]
      refine ⟨x, hexec.trans hx, ?_⟩
      rw [identidad_crearHilo hs, if_neg (Nat.ne_of_lt (hC.lt_proximo hmem)), hid]
    · intro hr _
      obtain ⟨x, hx, hid⟩ := h.primero (hready.not.1 hr) hini
      have hmem : x ∈ contenido s .mano ++ contenido s .new := List.mem_of_find?_eq_some hx
      have hlt : x < s.proximo := by
        rcases List.mem_append.1 hmem with hmem | hmem
        · exact hC.lt_proximo hmem
        · exact hC.lt_proximo hmem
      refine ⟨x, ?_, ?_⟩
      · rw [hprimero, hx]
        rfl
      · rw [identidad_crearHilo hs, if_neg (Nat.ne_of_lt hlt), hid]
    · intro hpos
      rw [hmutex] at hpos ⊢
      obtain ⟨hturno, huno, hr⟩ := h.mutex hpos
      exact ⟨hturno, huno, hready.2 hr⟩

theorem crear_ajeno {pid' : Pid} {tid : Tid} {basura : ℕ × ℕ} {ahora : ℕ} (h : Atendido s pid c)
    (hC : Coherente s S) (hs : crearHilo env s pid' tid basura ahora = .ok s')
    (hne : pid ≠ pid') : Atendido s' pid c := by
  obtain ⟨hready, hmutex, hprog⟩ := tieneReady_crearHilo pid hs
  have hexec : contenido s' (.exec pid) = contenido s (.exec pid) := by
    rw [contenido_crearHilo hs, update_of_ne (by simp)]
  have hprimero := primero_crearHilo pid hC hs
  rw [if_neg hne.symm, Option.or_none] at hprimero
  have hmem : ∀ l : Lugar, ∀ x ∈ contenido s' l, esHiloDe s' pid x →
      x ∈ contenido s l ∧ esHiloDe s pid x := by
    rintro l x hx ⟨tid', hid⟩
    rcases mem_crearHilo hC hs hx with ⟨hx, hid'⟩ | ⟨-, -, hid'⟩
    · exact ⟨hx, tid', hid'.symm.trans hid⟩
    · rw [hid] at hid'
      cases hid'
      exact absurd rfl hne
  have hviejo : ∀ l : Lugar, ∀ x ∈ contenido s l, identidad s' x = identidad s x := by
    intro l x hx
    rw [identidad_crearHilo hs, if_neg (Nat.ne_of_lt (hC.lt_proximo hx))]
  refine ⟨hprog h.conPrograma, ?_, fun tid' hc hr => h.principal tid' hc (hready.not.1 hr), ?_, ?_,
    ?_, ?_⟩
  · intro tid' hc hr
    obtain ⟨x, hx, hid⟩ := h.corre tid' hc (hready.1 hr)
    exact ⟨x, hexec.trans hx, (hviejo (.exec pid) x (by simp [hx])).trans hid⟩
  · intro hr l x hx hes
    obtain ⟨hx, hes⟩ := hmem l x hx hes
    exact h.sinAdmitir (hready.not.1 hr) l x hx hes
  · intro hr hturno
    obtain ⟨x, hx, hid⟩ := h.primero (hready.not.1 hr) hturno
    refine ⟨x, hprimero.trans hx, ?_⟩
    rcases List.mem_append.1 (List.mem_of_find?_eq_some hx) with hmem | hmem
    · exact (hviejo .mano x hmem).trans hid
    · exact (hviejo .new x hmem).trans hid
  · intro hturno
    obtain ⟨hr, hnadie⟩ := h.iniciando hturno
    refine ⟨hready.not.2 hr, fun l x hx hes => ?_⟩
    obtain ⟨hx, hes⟩ := hmem l x hx hes
    exact hnadie l x hx hes
  · intro hpos
    rw [hmutex] at hpos ⊢
    obtain ⟨hturno, huno, hr⟩ := h.mutex hpos
    exact ⟨hturno, huno, hready.2 hr⟩

/-- `planificarReady` takes a thread out of New. -/
theorem tomar (h : Atendido s pid c) (hC : Coherente s S)
    (hs : planificarReadyTomar s = .ok s') : Atendido s' pid c := by
  obtain ⟨hquieto, hm⟩ := planificarReadyTomar_mueve hC hs
  obtain ⟨hmano, -, x, resto, hnew, rfl⟩ := planificarReadyTomar_ok hs
  refine h.mueve hm mismaFase_sinAdmitir (primero_congr hm.identidad ?_) Iff.rfl rfl
    (fun _ hc => ⟨hc, rfl⟩) Iff.rfl fun hc => hc
  simp [contenido, hmano, hnew]

/-- The admission of a thread of another program, or of a program with a ready list. -/
theorem admitir_otro {ahora : ℕ} {x : Puntero} {pid' : Pid} {tid : Tid} (h : Atendido s pid c)
    (hC : Coherente s S) (hs : planificarReadyAdmitir s ahora = .ok s')
    (hmano : s.unHilo = some x) (hidx : identidad s x = some (pid', tid))
    (hcaso : pid' = pid → tieneReady s pid) : Atendido s' pid c := by
  obtain ⟨-, hm⟩ := planificarReadyAdmitir_mueve hC hs
  obtain ⟨hready, hexec, hnew, hmano', hmutex⟩ := admitir_dejaExec hs hmano hidx hcaso
  have hajeno : ¬ tieneReady s pid → ¬ esHiloDe s pid x := by
    rintro hr ⟨tid', hid⟩
    rw [hidx] at hid
    cases hid
    exact hr (hcaso rfl)
  have hmem : ¬ tieneReady s pid → ∀ l : Lugar, ∀ y ∈ contenido s' l, esHiloDe s pid y →
      y ∈ contenido s l := by
    intro hr l y hy hes
    refine mem_admitir_of_ne hC hs hmano ?_ hy
    rintro rfl
    exact hajeno hr hes
  refine ⟨(hm.conPrograma pid).2 h.conPrograma, ?_,
    fun tid hc hr => h.principal tid hc (hready.not.1 hr), ?_, ?_, ?_, ?_⟩
  · intro tid hc hr
    obtain ⟨y, hy, hid⟩ := h.corre tid hc (hready.1 hr)
    exact ⟨y, hexec.trans hy, (hm.identidad y).trans hid⟩
  · intro hr l y hy hes
    rw [esHiloDe_congr (hm.identidad y)] at hes
    exact h.sinAdmitir (hready.not.1 hr) l y (hmem (hready.not.1 hr) l y hy hes) hes
  · intro hr hturno
    obtain ⟨y, hy, hid⟩ := h.primero (hready.not.1 hr) hturno
    refine ⟨y, ?_, (hm.identidad y).trans hid⟩
    have hx : ¬ esDelPrograma s pid x = true :=
      esDelPrograma_iff.not.2 (hajeno (hready.not.1 hr))
    have hcola : contenido s .mano ++ contenido s .new = x :: s.new := by
      simp [contenido, hmano]
    have hes : esDelPrograma s' pid = esDelPrograma s pid := by
      funext z
      simp only [esDelPrograma, hm.identidad]
    rw [Suse.primero, hcola, List.find?_cons_of_neg hx] at hy
    rw [Suse.primero, hes]
    simpa [contenido, hnew, hmano'] using hy
  · intro hturno
    obtain ⟨hr, hnadie⟩ := h.iniciando hturno
    refine ⟨hready.not.2 hr, fun l y hy hes => ?_⟩
    rw [esHiloDe_congr (hm.identidad y)] at hes
    exact hnadie l y (hmem hr l y hy hes) hes
  · intro hpos
    rw [hmutex] at hpos ⊢
    obtain ⟨hturno, huno, hr⟩ := h.mutex hpos
    exact ⟨hturno, huno, hready.2 hr⟩

/-- The admission of the first thread of the program, which is the main one. -/
theorem admitir_principal {ahora : ℕ} {x : Puntero} {tid : Tid} (h : Atendido s pid c)
    (hC : Coherente s S) (hs : planificarReadyAdmitir s ahora = .ok s')
    (hmano : s.unHilo = some x) (hidx : identidad s x = some (pid, tid))
    (hno : ¬ tieneReady s pid) : Atendido s' pid c := by
  obtain ⟨hquieto, hm⟩ := planificarReadyAdmitir_mueve hC hs
  obtain ⟨hready, hexec⟩ := admitir_aExec hs hmano hidx hno
  have hcola : contenido s .mano ++ contenido s .new = x :: s.new := by
    simp [contenido, hmano]
  have hturno : c.turno ≠ .iniciando := by
    intro hturno
    refine (h.iniciando hturno).2 .mano x ?_ ⟨tid, hidx⟩
    simp [contenido, hmano]
  have htid : tid = mainThreadId := by
    obtain ⟨y, hy, hid⟩ := h.primero hno hturno
    rw [Suse.primero, hcola, List.find?_cons_of_pos
      (esDelPrograma_iff.2 ⟨tid, hidx⟩), Option.some_inj] at hy
    subst hy
    rw [hidx, Option.some_inj, Prod.mk.injEq] at hid
    exact hid.2
  refine ⟨(hm.conPrograma _).2 h.conPrograma, ?_, fun _ _ hr => absurd hready hr,
    fun hr => absurd hready hr, fun hr => absurd hready hr,
    fun hini => absurd hini hturno, ?_⟩
  · intro tid' hc _
    refine ⟨x, hexec, ?_⟩
    rw [hm.identidad, hidx, htid, h.principal tid' hc hno]
  · intro hpos
    rw [hquieto.enMutex] at hpos
    exact absurd (h.mutex hpos).2.2 hno

/-- `planificarReady` admits the thread that it has in its hand. -/
theorem admitir {ahora : ℕ} (h : Atendido s pid c) (hC : Coherente s S)
    (hs : planificarReadyAdmitir s ahora = .ok s') : Atendido s' pid c := by
  obtain ⟨x, hilo, p, hmano, -, hh, -, -⟩ := planificarReadyAdmitir_ok hs
  have hidx : identidad s x = some (hilo.pid, hilo.tid) := identidad_eq hh
  by_cases hcaso : hilo.pid = pid → tieneReady s pid
  · exact h.admitir_otro hC hs hmano hidx hcaso
  · rw [Classical.not_imp] at hcaso
    obtain ⟨rfl, hno⟩ := hcaso
    exact h.admitir_principal hC hs hmano hidx hno

/-- Another program disconnects. -/
theorem desconectar_ajeno {pid' : Pid} (h : Atendido s pid c) (hC : Coherente s S)
    (hs : Suse.paso env s (.desconectar pid') = .ok s') (hne : pid ≠ pid') :
    Atendido s' pid c := by
  obtain ⟨S', hC'⟩ := paso_coherente hC hs
  obtain ⟨-, rfl⟩ := paso_desconectar hs
  have hid : ∀ l : Lugar, ∀ x ∈ contenido (limpiarEstructuras
      { s with maximoProcesamiento := s.maximoProcesamiento + 1 } pid') l,
      identidad (limpiarEstructuras
        { s with maximoProcesamiento := s.maximoProcesamiento + 1 } pid') x = identidad s x := by
    intro l x hx
    obtain ⟨pid₁, tid, hid, -⟩ := hC'.propio x l hx
    rw [hid]
    exact (identidad_limpiarEstructuras hid).symm
  have hready : tieneReady (limpiarEstructuras
      { s with maximoProcesamiento := s.maximoProcesamiento + 1 } pid') pid ↔
        tieneReady s pid := by
    simp [tieneReady, limpiarEstructuras, Dictionary.get_remove, hne]
  have hexec : contenido (limpiarEstructuras
      { s with maximoProcesamiento := s.maximoProcesamiento + 1 } pid') (.exec pid) =
        contenido s (.exec pid) :=
    (contenido_desconectar (.exec pid)).2 hne
  have hprimero : Suse.primero (limpiarEstructuras
      { s with maximoProcesamiento := s.maximoProcesamiento + 1 } pid') pid =
        Suse.primero s pid := by
    rw [Suse.primero, Suse.primero]
    apply List.find?_congr
    intro x hx
    rcases List.mem_append.1 hx with hx | hx
    · rw [esDelPrograma, esDelPrograma, hid .mano x hx]
    · rw [esDelPrograma, esDelPrograma, hid .new x hx]
  have hmutex : (limpiarEstructuras
      { s with maximoProcesamiento := s.maximoProcesamiento + 1 } pid').enMutex pid =
        s.enMutex pid := by
    simp [limpiarEstructuras, hne]
  refine ⟨?_, ?_, fun tid hc hr => h.principal tid hc (hready.not.1 hr), ?_, ?_, ?_, ?_⟩
  · obtain ⟨p, hp⟩ := h.conPrograma
    exact ⟨p, by simp [limpiarEstructuras, Dictionary.get_remove, hne, hp]⟩
  · intro tid hc hr
    obtain ⟨x, hx, hidx⟩ := h.corre tid hc (hready.1 hr)
    refine ⟨x, hexec.trans hx, ?_⟩
    rw [hid (.exec pid) x (by rw [hexec, hx]; simp), hidx]
  · intro hr l x hx hes
    rw [esHiloDe_congr (hid l x hx)] at hes
    exact h.sinAdmitir (hready.not.1 hr) l x (mem_contenido_limpiarEstructuras hx) hes
  · intro hr hturno
    obtain ⟨x, hx, hidx⟩ := h.primero (hready.not.1 hr) hturno
    refine ⟨x, hprimero.trans hx, ?_⟩
    rcases List.mem_append.1 (List.mem_of_find?_eq_some hx) with hmem | hmem
    · rw [hid .mano x hmem, hidx]
    · rw [hid .new x hmem, hidx]
  · intro hturno
    obtain ⟨hr, hnadie⟩ := h.iniciando hturno
    refine ⟨hready.not.2 hr, fun l x hx hes => ?_⟩
    rw [esHiloDe_congr (hid l x hx)] at hes
    exact hnadie l x (mem_contenido_limpiarEstructuras hx) hes
  · intro hpos
    rw [hmutex] at hpos ⊢
    obtain ⟨hturno, huno, hr⟩ := h.mutex hpos
    exact ⟨hturno, huno, hready.2 hr⟩

/-- A signal that finds a thread of the program in the queue. -/
theorem signal_ajeno {pid' : Pid} {semID : String} {ahora : ℕ} (h : Atendido s pid c)
    (hs : semSuseSignal s pid' semID ahora = .ok s') : DejaExec pid s s' := by
  apply semSuseSignal_dejaExec hs
  intro x hx hes
  exact h.tieneReady_of_mem hx hes (by simp [Lugar.fase])

end Atendido

/-! ## Runs -/

/-- A connection gets a descriptor of which no place holds a thread. -/
def ConexionLimpia (x : Step (Conectados E) Evento) : Prop :=
  match x.label with
  | .conectar pid => ∀ l : Lugar, ∀ p ∈ contenido x.pre.estado l, ¬ esHiloDe x.pre.estado pid p
  | _ => True

namespace Atendidos

variable {c c' : Conectados E}

/-- The invariant after an event of the program `pid`, from what the event does to
it and to the others. -/
theorem of_programa {f : Cliente → Cliente} (h : Atendidos c)
    (hC : ∃ S, Coherente c'.estado S) (hclientes : c'.clientes =
      update c.clientes pid ((c.clientes pid).map f))
    (hpropio : ∀ cliente, c.clientes pid = some cliente → Atendido c'.estado pid (f cliente))
    (hajeno : ∀ pid', pid' ≠ pid → ∀ cliente, c.clientes pid' = some cliente →
      Atendido c'.estado pid' cliente)
    (hmutex : ∀ pid', c.clientes pid' = none → c'.estado.enMutex pid' = c.estado.enMutex pid') :
    Atendidos c' where
  coherente := hC
  cliente := by
    intro pid' cliente hcl
    rw [hclientes] at hcl
    by_cases hpid : pid' = pid
    · subst hpid
      rw [update_self, Option.map_eq_some_iff] at hcl
      obtain ⟨cl, hcl, rfl⟩ := hcl
      exact hpropio cl hcl
    · rw [update_of_ne hpid] at hcl
      exact hajeno pid' hpid cliente hcl
  ausente := by
    intro pid' hcl
    rw [hclientes] at hcl
    have hcl' : c.clientes pid' = none := by
      by_cases hpid : pid' = pid
      · subst hpid
        rwa [update_self, Option.map_eq_none_iff] at hcl
      · rwa [update_of_ne hpid] at hcl
    rw [hmutex pid' hcl']
    exact h.ausente pid' hcl'

/-- The invariant after an event of no program. -/
theorem of_nadie (h : Atendidos c) (hC : ∃ S, Coherente c'.estado S)
    (hclientes : c'.clientes = c.clientes)
    (hajeno : ∀ pid cliente, c.clientes pid = some cliente → Atendido c'.estado pid cliente)
    (hmutex : c'.estado.enMutex = c.estado.enMutex) : Atendidos c' where
  coherente := hC
  cliente := by
    rw [hclientes]
    exact hajeno
  ausente := by
    rw [hclientes, hmutex]
    exact h.ausente

theorem conectar (h : Atendidos c) (hlibre : c.clientes pid = none)
    (hs : Suse.paso env c.estado (.conectar pid) = .ok c'.estado)
    (hclientes : c'.clientes = update c.clientes pid (some .inicial))
    (hnadie : ∀ l : Lugar, ∀ p ∈ contenido c.estado l, ¬ esHiloDe c.estado pid p) :
    Atendidos c' := by
  obtain ⟨S, hC⟩ := h.coherente
  have hC' := paso_coherente hC hs
  obtain ⟨hp, heq⟩ := paso_conectar hs
  refine ⟨hC', fun pid' cliente hcl => ?_, fun pid' hcl => ?_⟩
  · rw [hclientes] at hcl
    rw [heq]
    by_cases hpid : pid' = pid
    · subst hpid
      rw [update_self, Option.some_inj] at hcl
      subst hcl
      exact .conectar hC hp (h.ausente pid' hlibre) hnadie
    · rw [update_of_ne hpid] at hcl
      exact (h.cliente pid' cliente hcl).conectar_ajeno hpid hp
  · rw [hclientes] at hcl
    by_cases hpid : pid' = pid
    · subst hpid
      rw [update_self] at hcl
      cases hcl
    · rw [update_of_ne hpid] at hcl
      rw [heq]
      exact h.ausente pid' hcl

theorem desconectar (h : Atendidos c)
    (hs : Suse.paso env c.estado (.desconectar pid) = .ok c'.estado)
    (hclientes : c'.clientes = update c.clientes pid none) : Atendidos c' := by
  obtain ⟨S, hC⟩ := h.coherente
  refine ⟨paso_coherente hC hs, fun pid' cliente hcl => ?_, fun pid' hcl => ?_⟩
  · rw [hclientes] at hcl
    by_cases hpid : pid' = pid
    · subst hpid
      rw [update_self] at hcl
      cases hcl
    · rw [update_of_ne hpid] at hcl
      exact (h.cliente pid' cliente hcl).desconectar_ajeno hC hs hpid
  · obtain ⟨-, heq⟩ := paso_desconectar hs
    rw [heq]
    by_cases hpid : pid' = pid
    · subst hpid
      simp [limpiarEstructuras]
    · rw [hclientes, update_of_ne hpid] at hcl
      simpa [limpiarEstructuras, hpid] using h.ausente pid' hcl

/-- A wait, a signal, a join or a close. -/
theorem cede {F : Lugar → Lugar → Prop} {pierde : Prop} (h : Atendidos c)
    (hm : Mueve F pierde c.estado c'.estado) (hF : SinAdmitir F)
    (hmutex : c'.estado.enMutex = c.estado.enMutex)
    (hclientes : c'.clientes = update c.clientes pid
      ((c.clientes pid).map fun cliente => { cliente with turno := .cediendo }))
    (hcorre : ∀ cliente, c.clientes pid = some cliente → cliente.corriendo)
    (hd : ∀ pid', ∀ cliente, c.clientes pid' = some cliente →
      Deja pid' c.estado c'.estado ∧ (pid' ≠ pid → DejaExec pid' c.estado c'.estado)) :
    Atendidos c' := by
  obtain ⟨S, hC⟩ := h.coherente
  obtain ⟨S', -, hC'⟩ := hm.coherente hC
  refine h.of_programa ⟨S', hC'⟩ hclientes ?_ ?_ ?_
  · intro cliente hcl
    exact (h.cliente pid cliente hcl).cede hm hF (hd pid cliente hcl).1 (hcorre cliente hcl)
  · intro pid' hne cliente hcl
    exact (h.cliente pid' cliente hcl).ajeno hm hF ((hd pid' cliente hcl).2 hne)
  · intro pid' _
    rw [hmutex]

/-- `schedule_next`, and the answer to a parked one. -/
theorem elige {pierde : Prop} {r : Option Tid} (h : Atendidos c)
    (hm : Mueve Lugar.MismaFase pierde c.estado c'.estado)
    (he : Elige pid r c.estado c'.estado)
    (hclientes : c'.clientes = update c.clientes pid
      ((c.clientes pid).map fun cliente => cliente.contestado r))
    (hcon : c.clientes pid ≠ none)
    (hmutex : r ≠ none → c'.estado.enMutex pid = 0)
    (hmutex' : r = none → c'.estado.enMutex pid = 1) : Atendidos c' := by
  obtain ⟨S, hC⟩ := h.coherente
  obtain ⟨S', -, hC'⟩ := hm.coherente hC
  refine h.of_programa ⟨S', hC'⟩ hclientes ?_ ?_ ?_
  · intro cliente hcl
    exact (h.cliente pid cliente hcl).elige hm he hmutex hmutex'
  · intro pid' hne cliente hcl
    exact (h.cliente pid' cliente hcl).ajeno hm mismaFase_sinAdmitir (he.ajeno pid' hne)
  · intro pid' hcl
    have hne : pid' ≠ pid := by
      rintro rfl
      exact hcon hcl
    exact (he.ajeno pid' hne).enMutex

/-- A call is parked only for a program that waits for an answer. -/
theorem enMutex_eq_zero (h : Atendidos c) {cliente : Cliente}
    (hcl : c.clientes pid = some cliente) (hturno : cliente.turno ≠ .esperando) :
    c.estado.enMutex pid = 0 := by
  by_contra hne
  exact hturno ((h.cliente pid cliente hcl).mutex (Nat.pos_of_ne_zero hne)).1

end Atendidos

end Suse
