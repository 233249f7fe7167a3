import Linuse.Suse.Ejecucion

/-!
# Semaphores, slots and exit lists

The handlers share most of their parts: `pasarAReady`, the loop of
`liberarBloqueadosPorElHilo` and the choice of the next thread leave alone the
semaphores with their queues, the multiprogramming slots and the exit lists
(`MismosRecursos`). What is left are the few steps that do change them.
-/

namespace Suse

variable {E : Type} {s s' s'' : Estado E} {env : Entorno E}

/-- The semaphores and their queues, the multiprogramming slots and the exit
lists are the same in the two states. -/
structure MismosRecursos (s s' : Estado E) : Prop where
  semaforos : s'.semaforos = s.semaforos
  bloqueados : s'.diccionarioDeBlockedPorSemaforo = s.diccionarioDeBlockedPorSemaforo
  maximo : s'.maximoProcesamiento = s.maximoProcesamiento
  exits : s'.diccionarioDeListasDeExit = s.diccionarioDeListasDeExit

namespace MismosRecursos

theorem refl (s : Estado E) : MismosRecursos s s := ⟨rfl, rfl, rfl, rfl⟩

theorem trans (h : MismosRecursos s s') (h' : MismosRecursos s' s'') :
    MismosRecursos s s'' :=
  ⟨h'.semaforos.trans h.semaforos, h'.bloqueados.trans h.bloqueados,
    h'.maximo.trans h.maximo, h'.exits.trans h.exits⟩

theorem contenido_semaforo (h : MismosRecursos s s') (semID : String) :
    contenido s' (.semaforo semID) = contenido s (.semaforo semID) := by
  simp only [contenido, h.bloqueados]

theorem contenido_exit (h : MismosRecursos s s') (pid : Pid) :
    contenido s' (.exit pid) = contenido s (.exit pid) := by
  simp only [contenido, h.exits]

end MismosRecursos

theorem SoloTiempos.mismosRecursos (h : SoloTiempos s s') : MismosRecursos s s' :=
  ⟨h.campo Estado.semaforos, h.campo Estado.diccionarioDeBlockedPorSemaforo,
    h.campo Estado.maximoProcesamiento, h.campo Estado.diccionarioDeListasDeExit⟩

theorem pasarAReady_recursos {x : Puntero} {ahora : ℕ}
    (h : pasarAReady s x ahora = .ok s') : MismosRecursos s s' := by
  obtain ⟨hilo, p, -, -, ⟨-, rfl⟩ | ⟨lista, -, rfl⟩⟩ := pasarAReady_ok h
  · exact ⟨rfl, rfl, rfl, rfl⟩
  · exact ⟨rfl, rfl, rfl, rfl⟩

theorem despertarPrograma_recursos (s : Estado E) (pid : Pid) (p : Programa) :
    MismosRecursos s (despertarPrograma s pid p) := by
  rw [despertarPrograma]
  split_ifs
  · exact ⟨rfl, rfl, rfl, rfl⟩
  · exact ⟨rfl, rfl, rfl, rfl⟩

theorem liberarLista_recursos {pid : Pid} {tid : Tid} {ahora : ℕ} (lista : List Puntero)
    (h : liberarLista pid tid ahora lista s = .ok s') : MismosRecursos s s' := by
  induction lista generalizing s with
  | nil =>
      cases h
      exact .refl _
  | cons x resto ih =>
      obtain ⟨p, hilo, q, -, -, -, ⟨-, h⟩ | ⟨l, -, -, h⟩⟩ := liberarLista_cons_ok h
      · refine MismosRecursos.trans ?_ (ih h)
        exact ⟨rfl, rfl, rfl, rfl⟩
      · refine MismosRecursos.trans ?_ (ih h)
        exact ⟨rfl, rfl, rfl, rfl⟩

theorem siguienteAEjecutar_recursos {pid : Pid} {reloj : ℕ → ℕ} {r : Option Tid}
    (h : siguienteAEjecutar env s pid reloj = .ok (s', r)) : MismosRecursos s s' := by
  obtain ⟨s₁, s₂, htiempos, hreplan, hcalc⟩ := siguienteAEjecutar_ok h
  obtain ⟨l, l', -, -, rfl⟩ := replanificarHilos_ok hreplan
  have hready : MismosRecursos s (s₁.ponerReady pid l') :=
    htiempos.mismosRecursos.trans ⟨rfl, rfl, rfl, rfl⟩
  obtain ⟨lista, p, -, -, hcaso⟩ := calcularSiguienteHilo_ok hcalc
  rcases hcaso with ⟨x, hilo, -, -, rfl, -⟩ | ⟨x, hilo, candidato, c, resto, -, -, -, -, rfl, -⟩ |
    ⟨candidato, resto, hilo, -, -, -, rfl, -⟩ | ⟨-, -, rfl, -⟩
  · exact hready.trans ⟨rfl, rfl, rfl, rfl⟩
  · exact hready.trans ⟨rfl, rfl, rfl, rfl⟩
  · exact hready.trans ⟨rfl, rfl, rfl, rfl⟩
  · exact hready.trans ⟨rfl, rfl, rfl, rfl⟩

theorem calcularSiguienteHiloDespierto_recursos {pid : Pid} {reloj : ℕ → ℕ} {r : Option Tid}
    (h : calcularSiguienteHiloDespierto s pid reloj = .ok (s', r)) : MismosRecursos s s' := by
  obtain ⟨p, candidato, resto, hilo, -, -, -, -, -, rfl, -⟩ :=
    calcularSiguienteHiloDespierto_ok h
  exact ⟨rfl, rfl, rfl, rfl⟩

/-- A close that finds the thread running gives its slot back and puts it at the
end of the exit list; any other changes nothing. -/
theorem realizarClose_recursos {S : Set Puntero} {pid : Pid} {tid : Tid} {ahora : ℕ}
    (hC : Coherente s S) (h : realizarClose s pid tid ahora = .ok s') :
    s'.semaforos = s.semaforos ∧
      s'.diccionarioDeBlockedPorSemaforo = s.diccionarioDeBlockedPorSemaforo ∧
      ∃ x, contenido s (.exec pid) = [x] ∧
        ((tieneTid s tid x = false ∧ s' = s) ∨
          (tieneTid s tid x = true ∧
            s'.maximoProcesamiento = s.maximoProcesamiento + 1 ∧
            contenido s' (.exit pid) = contenido s (.exit pid) ++ [x])) := by
  obtain ⟨p, x, hilo, hp, hexec, hh, ⟨htid, rfl⟩ | ⟨htid, s₁, p₁, hs₁, hp₁, h⟩⟩ :=
    realizarClose_ok h
  · exact ⟨rfl, rfl, x, mem_exec hp hexec, Or.inl ⟨by simpa [tieneTid, hh] using htid, rfl⟩⟩
  · obtain ⟨-, hcont, -⟩ := pasarAExit_mueve hC hp hexec hs₁ hp₁
    obtain ⟨hilo', q, -, -, h⟩ := liberarBloqueadosPorElHilo_ok h
    have hlibera := liberarLista_recursos _ h
    have hexit : contenido s' (.exit pid) = contenido s (.exit pid) ++ [x] := by
      rw [hlibera.contenido_exit, hcont, Function.update_self]
    obtain ⟨hilo'', t, -, ht, rfl⟩ := pasarAExit_ok hs₁
    have hrec := ht.mismosRecursos
    refine ⟨hlibera.semaforos.trans hrec.semaforos, hlibera.bloqueados.trans hrec.bloqueados,
      x, mem_exec hp hexec, Or.inr ⟨by simpa [tieneTid, hh] using htid, ?_, hexit⟩⟩
    have hmax := hlibera.maximo
    have hmax' := hrec.maximo
    simp only [Estado.ponerPrograma_maximoProcesamiento] at hmax
    rw [hmax, hmax']
    rfl

end Suse
