import Linuse.Suse.Estado

/-!
# Metrics

`tomarMetricas` visits the threads and accumulates their execution time in their
program, then resets the sums. The passes over the waiting times and the
percentages only write the log, and dereference the same programs, so they leave
no trace here.

The pass over the semaphores empties and refills the New queue instead of the
queue it is given (`tomarMetricasTiemposDeEjecucionParaSem`), and the pass over
the ready lists visits all of them once for each of them.
-/

namespace Suse

variable {E : Type}

def tomarMetricasTiemposDeEjecucionPara1Hilo (ahora : ℕ) (s : Estado E)
    (unHilo : Puntero) : Except Falla (Estado E) := do
  let h ← noNulo (s.hilos unHilo)
  let tiempo := aInt (ahora - h.timestampCreacion)
  let p ← noNulo (s.diccionarioDeProgramas.get h.pid)
  return (s.ponerHilo unHilo { h with tiempoDeEjecucion := tiempo }).ponerPrograma h.pid
    { p with
      tiempoDeEjecucionDeTodosLosHilos :=
        aInt (p.tiempoDeEjecucionDeTodosLosHilos + tiempo) }

/-- The passes over the threads, in order. -/
inductive Pasada where
  | news
  | blocked
  | ready
  | exec
  | sem
  deriving DecidableEq

/-- The threads that a pass visits. -/
def Pasada.hilos (s : Estado E) : Pasada → List Puntero
  | news => s.new
  | blocked => s.diccionarioDeProgramas.toList.flatMap fun e =>
      e.2.blocked.toList.flatMap fun l => l.2
  | ready => s.diccionarioDeListasDeReady.toList.flatMap fun _ =>
      s.diccionarioDeListasDeReady.toList.flatMap fun l => l.2
  | exec => s.diccionarioDeProgramas.toList.flatMap fun e => e.2.exec.toList
  | sem => s.diccionarioDeBlockedPorSemaforo.toList.flatMap fun _ => s.new

/-- The threads that the execution-time passes visit, in order: New, the join
lists, the ready lists, the running threads, and New again for each semaphore. -/
def hilosVisitados (s : Estado E) : List Puntero :=
  Pasada.news.hilos s ++ Pasada.blocked.hilos s ++ Pasada.ready.hilos s ++
    Pasada.exec.hilos s ++ Pasada.sem.hilos s

def reiniciarTiempoDeEjecucionDe1Programa (s : Estado E) (unPrograma : Programa) :
    Except Falla (Estado E) := do
  let p ← noNulo (s.diccionarioDeProgramas.get unPrograma.pid)
  return s.ponerPrograma unPrograma.pid { p with tiempoDeEjecucionDeTodosLosHilos := 0 }

def reiniciarTiempoDeEjecucionTotal (s : Estado E) : Except Falla (Estado E) :=
  (s.diccionarioDeProgramas.toList.map Prod.snd).foldlM
    reiniciarTiempoDeEjecucionDe1Programa s

def tomarMetricas (s : Estado E) (ahora : ℕ) : Except Falla (Estado E) := do
  let s₁ ← (hilosVisitados s).foldlM (tomarMetricasTiemposDeEjecucionPara1Hilo ahora) s
  reiniciarTiempoDeEjecucionTotal s₁

end Suse
