import Linuse.Suse.Movimientos

/-!
# Closing a thread

`realizarClose` moves the running thread to the exit list and then empties the
join list of that thread into ready. A thread that another join list still holds
stays there; since each thread is in one place, that can only be a second thread
with the same id, and then the one taken out of the list is lost.
-/

namespace Suse

open Function (update update_self update_of_ne update_eq_self update_comm)

variable {E : Type} {s s' s'' : Estado E} {S : Set Puntero}

/-- A thread that `bloqueadoPorAlgunHilo` finds is in a join list of the
program. -/
theorem bloqueadoPorAlgunHilo_mem {pid : Pid} {q : Programa} {tid : Tid}
    (hq : s.diccionarioDeProgramas.get pid = some q)
    (h : bloqueadoPorAlgunHilo s q tid = true) :
    ∃ y tid' hilo, y ∈ contenido s (.join pid tid') ∧ s.hilos y = some hilo ∧
      hilo.tid = tid := by
  rw [bloqueadoPorAlgunHilo, List.any_eq_true] at h
  obtain ⟨e, he, h⟩ := h
  rw [List.any_eq_true] at h
  obtain ⟨y, hy, htid⟩ := h
  have hget : q.blocked.get e.1 = some e.2 := (Dictionary.mem_toList _ _ _).1 he
  rw [tieneTid] at htid
  cases hh : s.hilos y with
  | none =>
      rw [hh] at htid
      cases htid
  | some hilo =>
      rw [hh] at htid
      refine ⟨y, e.1, hilo, ?_, hh, by simpa using htid⟩
      rw [contenido_join hq, hget]
      exact hy

theorem sacarDeLista_contenido (tid : Tid) (resto : List Puntero) {pid : Pid}
    {p : Programa} (hp : s.diccionarioDeProgramas.get pid = some p) :
    contenido (sacarDeLista s pid tid p resto) =
      update (contenido s) (.join pid tid) resto := by
  rw [sacarDeLista, contenido_ponerPrograma_put tid resto (p := p) hp rfl]
  have hexec : update (contenido s) (.exec pid) p.exec.toList = contenido s := by
    rw [← contenido_exec hp, update_eq_self]
  rw [hexec]

theorem sacarDeLista_quieto {pid : Pid} {tid : Tid} {p : Programa}
    {resto : List Puntero} (hp : s.diccionarioDeProgramas.get pid = some p) :
    Quieto s (sacarDeLista s pid tid p resto) :=
  .ponerPrograma hp (Or.inl rfl) rfl rfl

/-- When no other thread of the join lists has its id, a thread just taken out of
its list is in no other. -/
theorem sacarDeLista_libre (hC : Coherente s S) {pid : Pid} {tid : Tid} {p q : Programa}
    {x : Puntero} {resto : List Puntero} {hilo : Hilo E}
    (hunico : ∀ y t, y ∈ contenido s (.join pid t) → identidad s y = identidad s x → y = x)
    (hp : s.diccionarioDeProgramas.get pid = some p)
    (hl : contenido s (.join pid tid) = x :: resto) (hh : s.hilos x = some hilo)
    (hq : (sacarDeLista s pid tid p resto).diccionarioDeProgramas.get pid = some q) :
    bloqueadoPorAlgunHilo (sacarDeLista s pid tid p resto) q hilo.tid = false := by
  rw [Bool.eq_false_iff]
  intro hbloq
  obtain ⟨y, tid', hy, hmem, hhy, htid⟩ := bloqueadoPorAlgunHilo_mem hq hbloq
  rw [sacarDeLista_contenido tid resto hp] at hmem
  have htake : Placement (update (contenido s) (.join pid tid) resto) (S \ {x}) :=
    hC.particion.take (a := []) hl
  have hpidx : pid = hilo.pid :=
    hC.identidad_of_mem (l := .join pid tid) (by simp [hl]) hh
  have hmem' : y ∈ contenido s (.join pid tid') := by
    by_cases heq : (Lugar.join pid tid') = .join pid tid
    · rw [heq, update_self] at hmem
      rw [heq, hl]
      exact List.mem_cons_of_mem x hmem
    · rwa [update_of_ne heq] at hmem
  have hhy' : s.hilos y = some hy := hhy
  have hpidy : pid = hy.pid := hC.identidad_of_mem hmem' hhy'
  have hyx : y = x := by
    apply hunico y tid' hmem'
    rw [identidad_eq hhy', identidad_eq hh, htid, ← hpidy, hpidx]
  subst hyx
  exact (htake.mem hmem).2 rfl

/-- The state after a pass of the loop that puts the thread in ready. -/
def liberado (s : Estado E) (pid : Pid) (tid : Tid) (ahora : ℕ) (p q : Programa) (x : Puntero)
    (resto l : List Puntero) (hilo : Hilo E) : Estado E :=
  (((sacarDeLista s pid tid p resto).ponerReady hilo.pid (l ++ [x])).ponerHilo x
    { hilo with timestampReady := ahora }).ponerPrograma hilo.pid
      { q with
        cantidadDeHilosEnBlocked := q.cantidadDeHilosEnBlocked - 1
        cantidadDeHilosEnReady := q.cantidadDeHilosEnReady + 1 }

/-- One pass of the loop takes the first thread of the join list to the end of
ready. -/
theorem liberado_mueve {pid : Pid} {tid : Tid} {ahora : ℕ} {p q : Programa} {x : Puntero}
    {resto l : List Puntero} {hilo : Hilo E} (hC : Coherente s S)
    (hl : contenido s (.join pid tid) = x :: resto)
    (hp : s.diccionarioDeProgramas.get pid = some p) (hh : s.hilos x = some hilo)
    (hq : (sacarDeLista s pid tid p resto).diccionarioDeProgramas.get hilo.pid = some q)
    (hready : s.diccionarioDeListasDeReady.get hilo.pid = some l) :
    Quieto s (liberado s pid tid ahora p q x resto l hilo) ∧
      contenido (liberado s pid tid ahora p q x resto l hilo) =
        update (update (contenido s) (.join pid tid) resto) (.ready pid)
          (contenido s (.ready pid) ++ [x]) ∧
      Mueve Lugar.MismaFase False s (liberado s pid tid ahora p q x resto l hilo) := by
  have hx : x ∈ contenido s (.join pid tid) := by simp [hl]
  have hpid : pid = hilo.pid := hC.identidad_of_mem hx hh
  subst hpid
  have hquieto : Quieto s (liberado s hilo.pid tid ahora p q x resto l hilo) :=
    (sacarDeLista_quieto hp).trans (agregarAReady_quieto hq hready hh rfl rfl rfl)
  have hcont : contenido (liberado s hilo.pid tid ahora p q x resto l hilo) =
      update (update (contenido s) (.join hilo.pid tid) resto) (.ready hilo.pid)
        (contenido s (.ready hilo.pid) ++ [x]) := by
    rw [liberado, agregarAReady_contenido (p := q), sacarDeLista_contenido tid resto hp,
      contenido_ready hready]
    · exact hq
    · rfl
    · rfl
  have hpropio : Propio s x (.ready hilo.pid) := ⟨hilo.pid, hilo.tid, identidad_eq hh, rfl⟩
  exact ⟨hquieto, hcont, .of_head _ hquieto.toConserva hl hcont hpropio (by simp) rfl⟩

/-- The loop of `liberarBloqueadosPorElHilo`, by induction on the join list. Each
pass takes the first thread out of the list, to ready or, if ids repeat, out of
every place. -/
theorem liberarLista_mueve {pid : Pid} {tid : Tid} {ahora : ℕ} (lista : List Puntero)
    (hC : Coherente s S) (hl : contenido s (.join pid tid) = lista)
    (h : liberarLista pid tid ahora lista s = .ok s') :
    Quieto s s' ∧ Mueve Lugar.MismaFase (¬ TidUnico s) s s' := by
  induction lista generalizing s S with
  | nil =>
      cases h
      exact ⟨.refl _, .refl _⟩
  | cons x resto ih =>
      obtain ⟨p, hilo, q, hp, hh, hq, hcaso⟩ := liberarLista_cons_ok h
      rcases hcaso with ⟨hbloq, h⟩ | ⟨l, hready, -, h⟩
      · have hquieto₁ : Quieto s (sacarDeLista s pid tid p resto) := sacarDeLista_quieto hp
        have hcont₁ := sacarDeLista_contenido tid resto hp
        have hpid : pid = hilo.pid := hC.identidad_of_mem (l := .join pid tid) (by simp [hl]) hh
        have hno : ¬ TidUnico s := by
          intro hunico
          have hunico' : ∀ y t, y ∈ contenido s (.join pid t) →
              identidad s y = identidad s x → y = x := fun y _ _ heq =>
            hunico y x _ (heq.trans (identidad_eq hh)) (identidad_eq hh)
          rw [sacarDeLista_libre hC hunico' hp hl hh (by rwa [← hpid] at hq)] at hbloq
          cases hbloq
        have hmueve₁ : Mueve Lugar.MismaFase (¬ TidUnico s) s (sacarDeLista s pid tid p resto) :=
          ⟨hquieto₁.toConserva, hcont₁ ▸ Moves.drop (a := []) .refl hno hl⟩
        obtain ⟨S₁, -, hC₁⟩ := hmueve₁.coherente hC
        obtain ⟨hquieto, hmueve⟩ := ih hC₁ (by rw [hcont₁, update_self]) h
        rw [tidUnico_congr hquieto₁.identidad] at hmueve
        exact ⟨hquieto₁.trans hquieto, hmueve₁.trans hmueve⟩
      · obtain ⟨hquieto₂, hcont₂, hmueve₂⟩ :=
          liberado_mueve hC hl hp hh hq hready
        have hC₂ := hmueve₂.coherente_of_not not_false hC
        obtain ⟨hquieto, hmueve⟩ := ih hC₂ (by rw [hcont₂, update_of_ne (by simp),
          update_self]) h
        rw [tidUnico_congr hquieto₂.identidad] at hmueve
        exact ⟨hquieto₂.trans hquieto,
          (hmueve₂.mono (fun _ _ hF => hF) False.elim).trans hmueve⟩

theorem liberarBloqueadosPorElHilo_mueve {x : Puntero} {ahora : ℕ} (hC : Coherente s S)
    (h : liberarBloqueadosPorElHilo s x ahora = .ok s') :
    Quieto s s' ∧ Mueve Lugar.MismaFase (¬ TidUnico s) s s' := by
  obtain ⟨hilo, p, -, hp, h⟩ := liberarBloqueadosPorElHilo_ok h
  exact liberarLista_mueve _ hC (contenido_join hp) h

/-- `realizarClose` up to its `liberarBloqueadosPorElHilo`. -/
theorem pasarAExit_mueve {pid : Pid} {p p₁ : Programa} {x : Puntero} {ahora : ℕ}
    {s₁ : Estado E} (hC : Coherente s S)
    (hp : s.diccionarioDeProgramas.get pid = some p) (hexec : p.exec = some x)
    (h : pasarAExit s x ahora = .ok s₁)
    (hp₁ : s₁.diccionarioDeProgramas.get pid = some p₁) :
    Quieto s (s₁.ponerPrograma pid { p₁ with exec := none }) ∧
      contenido (s₁.ponerPrograma pid { p₁ with exec := none }) =
        update (update (contenido s) (.exec pid) []) (.exit pid)
          (contenido s (.exit pid) ++ [x]) ∧
      Propio s x (.exit pid) := by
  obtain ⟨hilo, t, hh, ht, rfl⟩ := pasarAExit_ok h
  have hmem := mem_exec hp hexec
  have hx : x ∈ contenido s (.exec pid) := by simp [hmem]
  have hpid : pid = hilo.pid := hC.identidad_of_mem hx hh
  subst hpid
  have hexit : Quieto s (ponerEnExit s hilo.pid x) := .resto _ _ _ _ _ _
  have hmax : Quieto t { t with maximoProcesamiento := t.maximoProcesamiento + 1 } :=
    .resto _ _ _ _ _ _
  refine ⟨((hexit.trans ht.quieto).trans hmax).trans
    (.ponerPrograma hp₁ (Or.inr rfl) rfl rfl), ?_, hC.propio_of_mem hx (fun _ h => h) rfl⟩
  rw [contenido_ponerPrograma (p := p₁), contenido_maximoProcesamiento, ht.contenido,
    ponerEnExit, contenido_ponerExit, update_comm (by simp)]
  · rfl
  · exact hp₁
  · rfl

theorem realizarClose_mueve {pid : Pid} {tid : Tid} {ahora : ℕ} (hC : Coherente s S)
    (h : realizarClose s pid tid ahora = .ok s') :
    Quieto s s' ∧ Mueve Lugar.Cierra (¬ TidUnico s) s s' := by
  obtain ⟨p, x, hilo, hp, hexec, hh, ⟨-, rfl⟩ | ⟨-, s₁, p₁, hs₁, hp₁, h⟩⟩ :=
    realizarClose_ok h
  · exact ⟨.refl _, .refl _⟩
  · obtain ⟨hquieto₁, hcont₁, hpropio⟩ := pasarAExit_mueve hC hp hexec hs₁ hp₁
    have hmueve₁ : Mueve Lugar.Cierra (¬ TidUnico s) s _ :=
      .of_head _ hquieto₁.toConserva (mem_exec hp hexec) hcont₁ hpropio (by simp)
        (Or.inr ⟨pid, rfl, rfl⟩)
    obtain ⟨S₁, -, hC₁⟩ := hmueve₁.coherente hC
    obtain ⟨hquieto, hmueve⟩ := liberarBloqueadosPorElHilo_mueve hC₁ h
    rw [tidUnico_congr hquieto₁.identidad] at hmueve
    exact ⟨hquieto₁.trans hquieto,
      hmueve₁.trans (hmueve.mono (fun _ _ hF => Or.inl hF) fun hno => hno)⟩

end Suse
