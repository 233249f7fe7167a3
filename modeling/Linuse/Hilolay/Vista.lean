import Linuse.Hilolay.Sistema
import Mathlib.Data.List.Induction

/-!
# The system as one program sees it

For a program that stays connected a step of the system is one of a few things (`Vista`): a step of
its own, a request of it that the scheduler handles, its parked call that goes on, or something that
is not about it. What holds of a program in every run is proved case by case over them. What is left
to remember of a run are the calls of the program since it connected (`llamadas`) and the requests
that are in its connection (`EnCamino`).
-/

namespace Hilolay

open Suse Wire Transition Fallible
open Function (update update_self update_of_ne)

variable {E : Type} {env : Entorno E} {basura : ℕ → UInt8} {s s' : Estado E} {pid : Pid}
  {x x' : Sistema E} {c : Conectados E} {cl : Cliente} {p p' : Proceso} {tid : Tid}
  {e : Suceso}

/-- The program that a step is about. -/
def Suceso.programa : Suceso → Option Pid
  | .inicia pid => some pid
  | .llama pid _ => some pid
  | .pide pid => some pid
  | .recibe pid => some pid
  | .termina pid => some pid
  | .conecta pid => some pid
  | .atiende pid _ => some pid
  | .despierta pid _ => some pid
  | .desconecta pid => some pid
  | .toma => none
  | .admite _ => none
  | .mide _ => none

/-- What a step is for a program that was connected before it and after it. -/
inductive Vista (env : Entorno E) (basura : ℕ → UInt8) (pid : Pid) (s : Estado E) (p : Proceso) :
    Suceso → Estado E → Proceso → Prop
  | inicia {p' : Proceso} : p.hilolayInit basura = .ok p' →
      Vista env basura pid s p (.inicia pid) s p'
  | llama {l : Llamada} {p' : Proceso} : p.llamar basura l = .ok p' →
      Vista env basura pid s p (.llama pid l) s p'
  | pide {p' : Proceso} : p.pedir basura = .ok p' → Vista env basura pid s p (.pide pid) s p'
  | recibe {p' : Proceso} : p.recibir = .ok p' → Vista env basura pid s p (.recibe pid) s p'
  | termina {p' : Proceso} : p.terminar = .ok p' → Vista env basura pid s p (.termina pid) s p'
  | atiende {m : Momento} {r : Pedido} {ida bytes : List UInt8} {s' : Estado E} :
      leerPedido.run p.ida = some (some r, ida) → Suse.paso env s (r.evento pid m) = .ok s' →
      Vista env basura pid s p (.atiende pid m) s'
        { p with ida := ida, vuelta := p.vuelta ++ bytes }
  | despierta {reloj : ℕ → ℕ} {bytes : List UInt8} {s' : Estado E} :
      Suse.paso env s (.despertar pid reloj) = .ok s' →
      Vista env basura pid s p (.despierta pid reloj) s' { p with vuelta := p.vuelta ++ bytes }
  | ajena {e : Suceso} {e' : Evento} {s' : Estado E} : Suse.paso env s e' = .ok s' →
      e.programa ≠ some pid → e'.programa ≠ some pid → Vista env basura pid s p e s' p
  | quieta {e : Suceso} : e.programa ≠ some pid → Vista env basura pid s p e s p

/-- A step of a program, seen by any of them. -/
theorem vista_mover {pid' : Pid} {f : Proceso → Except Falla Proceso}
    (hs : x.mover pid' f = .ok x') (hp' : x'.procesos pid = some p') :
    x'.estado = x.estado ∧ (pid' ≠ pid ∧ x.procesos pid = some p' ∨
      pid' = pid ∧ ∃ p, x.procesos pid = some p ∧ f p = .ok p') := by
  obtain ⟨p, hp, hs⟩ := bind_eq_ok.1 hs
  obtain ⟨q, hq, hs⟩ := bind_eq_ok.1 hs
  rw [orFail_eq_ok] at hp
  rw [← pure_eq_ok.1 hs] at hp' ⊢
  refine ⟨rfl, ?_⟩
  change update x.procesos pid' (some q) pid = some p' at hp'
  by_cases hpid : pid = pid'
  · subst hpid
    rw [update_self, Option.some.injEq] at hp'
    exact .inr ⟨rfl, p, hp, hp' ▸ hq⟩
  · rw [update_of_ne hpid] at hp'
    exact .inl ⟨Ne.symm hpid, hp'⟩

/-- A handler of a program, seen by any of them. -/
theorem vista_manejar {pid' : Pid} {e' : Evento}
    (hs : Sistema.manejar env basura x pid' p e' = .ok x') (hp' : x'.procesos pid = some p') :
    Suse.paso env x.estado e' = .ok x'.estado ∧
      (pid' ≠ pid ∧ x.procesos pid = some p' ∨
        pid' = pid ∧ ∃ bytes, p' = { p with vuelta := p.vuelta ++ bytes }) := by
  obtain ⟨t, ht, hs⟩ := bind_eq_ok.1 hs
  obtain ⟨bytes, -, hs⟩ := bind_eq_ok.1 hs
  rw [← pure_eq_ok.1 hs] at hp' ⊢
  refine ⟨ht, ?_⟩
  change update x.procesos pid' (some { p with vuelta := p.vuelta ++ bytes }) pid = some p' at hp'
  by_cases hpid : pid = pid'
  · rw [hpid, update_self, Option.some.injEq] at hp'
    exact .inr ⟨hpid.symm, bytes, hp'.symm⟩
  · rw [update_of_ne hpid] at hp'
    exact .inl ⟨Ne.symm hpid, hp'⟩

theorem programa_evento (q : Pedido) (pid : Pid) (m : Momento) :
    (q.evento pid m).programa = some pid := by
  cases q <;> rfl

/-- A step is one of these for a program that is connected after it, unless it connects it. -/
theorem vista_of_transicion (hr : Refina x c) (he : e ≠ .conecta pid)
    (hs : Sistema.Transicion env basura x e x') (hp' : x'.procesos pid = some p') :
    ∃ p, x.procesos pid = some p ∧ Vista env basura pid x.estado p e x'.estado p' := by
  have hmover : ∀ {pid' f}, e.programa = some pid' → x.mover pid' f = .ok x' →
      (∀ p, f p = .ok p' → pid' = pid → Vista env basura pid x.estado p e x.estado p') →
      ∃ p, x.procesos pid = some p ∧ Vista env basura pid x.estado p e x'.estado p' := by
    intro pid' f hprograma hs hvista
    obtain ⟨hestado, ⟨hpid, hp⟩ | ⟨hpid, p, hp, hf⟩⟩ := vista_mover hs hp'
    · refine ⟨p', hp, hestado ▸ .quieta ?_⟩
      rw [hprograma]
      exact fun h => hpid (Option.some.inj h)
    · exact ⟨p, hp, hestado ▸ hvista p hf hpid⟩
  have hpropio : ∀ {e'}, e.programa = none → e'.programa = none → x.propio env e' = .ok x' →
      ∃ p, x.procesos pid = some p ∧ Vista env basura pid x.estado p e x'.estado p' := by
    intro e' hprograma hprograma' hs
    obtain ⟨t, ht, hs⟩ := bind_eq_ok.1 hs
    rw [← pure_eq_ok.1 hs] at hp' ⊢
    exact ⟨p', hp', .ajena ht (by rw [hprograma]; simp) (by rw [hprograma']; simp)⟩
  cases e with
  | inicia pid' => exact hmover rfl hs fun p hp hpid => by rw [hpid]; exact .inicia hp
  | llama pid' l => exact hmover rfl hs fun p hp hpid => by rw [hpid]; exact .llama hp
  | pide pid' => exact hmover rfl hs fun p hp hpid => by rw [hpid]; exact .pide hp
  | recibe pid' => exact hmover rfl hs fun p hp hpid => by rw [hpid]; exact .recibe hp
  | termina pid' => exact hmover rfl hs fun p hp hpid => by rw [hpid]; exact .termina hp
  | toma => exact hpropio rfl rfl hs
  | admite ahora => exact hpropio rfl rfl hs
  | mide ahora => exact hpropio rfl rfl hs
  | despierta pid' reloj =>
      obtain ⟨p, hp, hs⟩ := bind_eq_ok.1 hs
      rw [orFail_eq_ok] at hp
      obtain ⟨hpaso, ⟨hpid, hpre⟩ | ⟨rfl, bytes, rfl⟩⟩ := vista_manejar hs hp'
      · have hne : some pid' ≠ some pid := fun h => hpid (Option.some.inj h)
        exact ⟨p', hpre, .ajena hpaso hne hne⟩
      · exact ⟨p, hp, .despierta hpaso⟩
  | atiende pid' m =>
      obtain ⟨p, hp, hs⟩ := bind_eq_ok.1 hs
      obtain ⟨⟨r, ida⟩, hleer, hs⟩ := bind_eq_ok.1 hs
      rw [orFail_eq_ok] at hp hleer
      -- the request is one of the library
      obtain ⟨cl, -, hconoce⟩ := hr.cliente hp
      obtain ⟨q, -, -, rfl, -⟩ := hconoce.lee hleer
      obtain ⟨hpaso, ⟨hpid, hpre⟩ | ⟨rfl, bytes, rfl⟩⟩ := vista_manejar hs hp'
      · have hne : some pid' ≠ some pid := fun h => hpid (Option.some.inj h)
        exact ⟨p', hpre, .ajena hpaso hne (by rw [programa_evento]; exact hne)⟩
      · exact ⟨p, hp, .atiende hleer hpaso⟩
  | conecta pid' =>
      have hpid : pid ≠ pid' := by
        rintro rfl
        exact he rfl
      rw [Sistema.Transicion, Sistema.paso] at hs
      split_ifs at hs
      obtain ⟨t, ht, hs⟩ := bind_eq_ok.1 hs
      rw [← pure_eq_ok.1 hs] at hp' ⊢
      change update x.procesos pid' _ pid = some p' at hp'
      rw [update_of_ne hpid] at hp'
      have hne : some pid' ≠ some pid := fun h => hpid (Option.some.inj h).symm
      exact ⟨p', hp', .ajena ht hne hne⟩
  | desconecta pid' =>
      obtain ⟨q, -, hs⟩ := bind_eq_ok.1 hs
      split_ifs at hs
      obtain ⟨t, ht, hs⟩ := bind_eq_ok.1 hs
      rw [← pure_eq_ok.1 hs] at hp' ⊢
      change update x.procesos pid' none pid = some p' at hp'
      have hpid : pid ≠ pid' := by
        rintro rfl
        rw [update_self] at hp'
        cases hp'
      rw [update_of_ne hpid] at hp'
      have hne : some pid' ≠ some pid := fun h => hpid (Option.some.inj h).symm
      exact ⟨p', hp', .ajena ht hne hne⟩

/-! ## The calls of a program -/

/-- The calls of the program after a step, each with the ULT that made it. -/
def trasLlamar (pid : Pid) (ls : List (Tid × Llamada)) (y : Step (Sistema E) Suceso) :
    List (Tid × Llamada) :=
  match y.label with
  | .conecta pid' => if pid' = pid then [] else ls
  | .llama pid' l =>
      if pid' = pid then
        ls ++ (((y.pre.procesos pid).bind fun p => p.biblioteca.hilolayGetTid).map (·, l)).toList
      else ls
  | _ => ls

/-- The calls of the program since it connected, each with the ULT that made it. -/
def llamadas (pid : Pid) (tr : List (Step (Sistema E) Suceso)) : List (Tid × Llamada) :=
  tr.foldl (trasLlamar pid) []

theorem llamadas_snoc (pid : Pid) (tr : List (Step (Sistema E) Suceso))
    (y : Step (Sistema E) Suceso) :
    llamadas pid (tr ++ [y]) = trasLlamar pid (llamadas pid tr) y := by
  rw [llamadas, llamadas, List.foldl_append, List.foldl_cons, List.foldl_nil]

theorem trasLlamar_conecta (ls : List (Tid × Llamada)) :
    trasLlamar pid ls ⟨x, .conecta pid, x'⟩ = [] := if_pos rfl

/-- A call of a connected program adds itself to its calls. -/
theorem mem_trasLlamar {ls : List (Tid × Llamada)} {l : Llamada} (hp : x.procesos pid = some p)
    (he : e ≠ .conecta pid) :
    (tid, l) ∈ trasLlamar pid ls ⟨x, e, x'⟩ ↔
      (tid, l) ∈ ls ∨ e = .llama pid l ∧ p.biblioteca.hilolayGetTid = some tid := by
  cases e with
  | conecta pid' =>
      have hpid : pid' ≠ pid := fun hpid => he (congrArg Suceso.conecta hpid)
      rw [show trasLlamar pid ls ⟨x, .conecta pid', x'⟩ = ls from if_neg hpid]
      simp
  | llama pid' l' =>
      by_cases hpid : pid' = pid
      · subst hpid
        refine (iff_of_eq (congrArg ((tid, l) ∈ ·) (if_pos rfl))).trans ?_
        rw [hp, Option.bind_some, List.mem_append, Option.mem_toList, Option.map_eq_some_iff]
        refine or_congr_right ⟨?_, ?_⟩
        · rintro ⟨tid', hget, heq⟩
          cases heq
          exact ⟨rfl, hget⟩
        · rintro ⟨heq, hget⟩
          cases heq
          exact ⟨tid, hget, rfl⟩
      · rw [show trasLlamar pid ls ⟨x, .llama pid' l', x'⟩ = ls from if_neg hpid]
        simp [hpid]
  | _ => exact ⟨.inl, fun h => h.resolve_right fun h => by cases h.1⟩

/-- The ULTs of a program whose routine has returned, after a step. -/
def trasSalir (pid : Pid) (salidos : List Tid) (y : Step (Sistema E) Suceso) : List Tid :=
  match y.label with
  | .conecta pid' => if pid' = pid then [] else salidos
  | .llama pid' .salir =>
      if pid' = pid then
        salidos ++ ((y.pre.procesos pid).bind fun p => p.biblioteca.hilolayGetTid).toList
      else salidos
  | _ => salidos

/-- The ULTs of the program that is connected whose routine has returned. -/
def salidos (pid : Pid) (tr : List (Step (Sistema E) Suceso)) : List Tid :=
  tr.foldl (trasSalir pid) []

theorem salidos_snoc (pid : Pid) (tr : List (Step (Sistema E) Suceso))
    (y : Step (Sistema E) Suceso) : salidos pid (tr ++ [y]) = trasSalir pid (salidos pid tr) y := by
  rw [salidos, salidos, List.foldl_append, List.foldl_cons, List.foldl_nil]

theorem mem_salidos (pid : Pid) (tr : List (Step (Sistema E) Suceso)) (tid : Tid) :
    tid ∈ salidos pid tr ↔ (tid, .salir) ∈ llamadas pid tr := by
  induction tr using List.reverseRecOn with
  | nil => simp [salidos, llamadas]
  | append_singleton tr y ih =>
      obtain ⟨x, e, x'⟩ := y
      rw [salidos_snoc, llamadas_snoc]
      cases e with
      | conecta pid' =>
          by_cases hpid : pid' = pid
          · rw [show trasSalir pid _ ⟨x, .conecta pid', x'⟩ = [] from if_pos hpid,
              show trasLlamar pid _ ⟨x, .conecta pid', x'⟩ = [] from if_pos hpid]
            simp
          · rw [show trasSalir pid _ ⟨x, .conecta pid', x'⟩ = _ from if_neg hpid,
              show trasLlamar pid _ ⟨x, .conecta pid', x'⟩ = _ from if_neg hpid]
            exact ih
      | llama pid' l =>
          by_cases hpid : pid' = pid
          · rw [show trasLlamar pid _ ⟨x, .llama pid' l, x'⟩ = _ from if_pos hpid,
              List.mem_append, ← ih]
            cases l with
            | salir =>
                rw [show trasSalir pid _ ⟨x, .llama pid' .salir, x'⟩ = _ from if_pos hpid,
                  List.mem_append]
                generalize (x.procesos pid).bind (fun p => p.biblioteca.hilolayGetTid) = corre
                simp
            | _ =>
                generalize (x.procesos pid).bind (fun p => p.biblioteca.hilolayGetTid) = corre
                simp [trasSalir]
          · rw [show trasLlamar pid _ ⟨x, .llama pid' l, x'⟩ = _ from if_neg hpid, ← ih]
            cases l with
            | salir => rw [show trasSalir pid _ ⟨x, .llama pid' .salir, x'⟩ = _ from if_neg hpid]
            | _ => rfl
      | _ => exact ih

/-- The request that a call of the ULT sends. -/
def Llamada.pedido (b : Biblioteca) (tid : Tid) : Llamada → Option Pedido
  | .create => b.hilolayCreate.map fun nuevo => .create nuevo.1
  | .yield => none
  | .join thread => some (.join thread.1)
  | .wait sem => some (.wait tid sem.1)
  | .signal sem => some (.signal tid sem.1)
  | .salir => some (.close tid)
  | .retornar => some (.close tid)

/-- What a call changes, up to its `schedule_next`. -/
theorem llamar_ok {l : Llamada} (hs : p.llamar basura l = .ok p') :
    ∃ tid, p.etapa = .corriendo ∧ p.biblioteca.hilolayGetTid = some tid ∧
      p'.ida = p.ida ++ ((l.pedido p.biblioteca tid).elim [] Pedido.bytes) ∧
      (l ≠ .create → p'.biblioteca = p.biblioteca ∧
        p'.etapa = if l = .retornar then .terminado else .cediendo) := by
  rw [Proceso.llamar] at hs
  split_ifs at hs with hetapa
  obtain ⟨tid, hget, hs⟩ := bind_eq_ok.1 hs
  refine ⟨tid, hetapa, orFail_eq_ok.1 hget, ?_⟩
  cases l with
  | create =>
      refine ⟨?_, fun h => absurd rfl h⟩
      cases hcreate : p.biblioteca.hilolayCreate with
      | none =>
          rw [hcreate] at hs
          rw [← pure_eq_ok.1 hs, Llamada.pedido, hcreate]
          exact (List.append_nil _).symm
      | some nuevo =>
          rw [hcreate] at hs
          rw [enviar_ok hs, Llamada.pedido, hcreate]
          rfl
  | yield =>
      rw [← pure_eq_ok.1 hs]
      exact ⟨(List.append_nil _).symm, fun _ => ⟨rfl, rfl⟩⟩
  | retornar =>
      rw [enviar_ok hs]
      exact ⟨rfl, fun _ => ⟨rfl, rfl⟩⟩
  | _ =>
      rw [enviar_ok hs]
      refine ⟨rfl, fun _ => ⟨rfl, ?_⟩⟩
      rw [if_neg (by simp)]

/-! ## The requests in the connection -/

section EnCamino

variable {qs : List Pedido} {q r : Pedido}

/-- The request is in the connection. -/
def EnCamino (p : Proceso) (q : Pedido) : Prop :=
  ∃ qs : List Pedido, (∀ r ∈ qs, r.Cabe) ∧ p.ida = qs.flatMap Pedido.bytes ∧ q ∈ qs

/-- There is one way of reading what is in the connection. -/
theorem enCamino_iff (hcabe : ∀ r ∈ qs, r.Cabe) (hida : p.ida = qs.flatMap Pedido.bytes) :
    EnCamino p q ↔ q ∈ qs := by
  refine ⟨?_, fun h => ⟨qs, hcabe, hida, h⟩⟩
  rintro ⟨rs, hcabe', hida', hmem⟩
  obtain ⟨antes, luego, rfl⟩ := List.append_of_mem hmem
  rw [hida, List.flatMap_append, List.flatMap_cons] at hida'
  exact mem_of_flatMap_bytes (hcabe' q (by simp)) (fun r hr => hcabe' r (by simp [hr])) hcabe
    hida'.symm

theorem enCamino_congr (hida : p'.ida = p.ida) : EnCamino p' q ↔ EnCamino p q := by
  rw [EnCamino, EnCamino, hida]

theorem Refleja.ida {d : Cliente} (h : Refleja p qs d) : p.ida = qs.flatMap Pedido.bytes := by
  cases h <;> rfl

namespace Conoce

/-- What a program sends goes after what it has sent. -/
theorem enCamino_envia (h : Conoce p cl) (hr : r.Cabe) (hida : p'.ida = p.ida ++ r.bytes) :
    EnCamino p' q ↔ EnCamino p q ∨ q = r := by
  obtain ⟨qs, d, hcabe, -, hrefleja⟩ := h.pedidos
  have hcabe' : ∀ r' ∈ qs ++ [r], r'.Cabe := by
    intro r' hr'
    rcases List.mem_append.1 hr' with hr' | hr'
    · exact hcabe r' hr'
    · rw [List.mem_singleton.1 hr']
      exact hr
  rw [hrefleja.ida, flatMap_bytes_snoc] at hida
  rw [enCamino_iff hcabe hrefleja.ida, enCamino_iff hcabe' hida, List.mem_append,
    List.mem_singleton]

/-- What the scheduler reads leaves the connection. -/
theorem enCamino_lee {ida : List UInt8} (h : Conoce p cl)
    (hleer : leerPedido.run p.ida = some (some r, ida)) :
    EnCamino p q ↔ q = r ∨ EnCamino { p with ida := ida } q := by
  obtain ⟨qs, d, hcabe, -, hrefleja⟩ := h.pedidos
  cases qs with
  | nil =>
      rw [hrefleja.ida, List.flatMap_nil, run_leerPedido_nil] at hleer
      cases hleer
  | cons r' qs =>
      rw [hrefleja.ida, List.flatMap_cons, reads_leerPedido (hcabe r' List.mem_cons_self)] at hleer
      cases hleer
      rw [enCamino_iff hcabe hrefleja.ida,
        enCamino_iff (fun q hq => hcabe q (List.mem_cons_of_mem r hq)) rfl, List.mem_cons]

/-- While a ULT runs its program has sent creations only. -/
theorem create_of_enCamino (h : Conoce p cl) (hetapa : p.etapa = .corriendo)
    (hq : EnCamino p q) : ∃ nuevo, q = .create nuevo := by
  obtain ⟨qs, d, hcabe, henc, hrefleja⟩ := h.pedidos
  rw [enCamino_iff hcabe hrefleja.ida] at hq
  cases hrefleja with
  | corriendo => exact (henc.de_corriendo rfl).1 q hq
  | cediendo he => rcases he with rfl | rfl <;> cases hetapa
  | _ => cases hetapa

/-- A program that has not started has sent nothing. -/
theorem ne_iniciando_of_enCamino (h : Conoce p cl) (hq : EnCamino p q) : p.etapa ≠ .iniciando := by
  obtain ⟨qs, d, hcabe, henc, hrefleja⟩ := h.pedidos
  rw [enCamino_iff hcabe hrefleja.ida] at hq
  refine hrefleja.ne_iniciando fun hd => ?_
  obtain ⟨rfl, -⟩ := henc.de_iniciando hd
  cases hq

/-- No answer is on its way to a program with a request in the connection. -/
theorem vuelta_of_enCamino (h : Conoce p cl) (hq : EnCamino p q) : p.vuelta = [] := by
  obtain ⟨qs, d, hcabe, -, hrefleja⟩ := h.pedidos
  rw [enCamino_iff hcabe hrefleja.ida] at hq
  cases hrefleja with
  | contestado => cases hq
  | _ => rfl

/-- The requests of the calls can be sent. -/
theorem cabe_pedido {l : Llamada} (h : Conoce p cl) (hetapa : p.etapa = .corriendo)
    (hget : p.biblioteca.hilolayGetTid = some tid) (hr : l.pedido p.biblioteca tid = some r) :
    r.Cabe := by
  obtain ⟨qs, d, -, -, hrefleja⟩ := h.pedidos
  cases hrefleja with
  | @corriendo n i _ hi hn =>
      rw [Biblioteca.hilolayGetTid_de hi hn, Option.some.injEq] at hget
      have htid : FitsInt tid := hget ▸ fitsInt_of_le (by omega)
      cases l with
      | create =>
          rw [Llamada.pedido, Option.map_eq_some_iff] at hr
          obtain ⟨nuevo, hcreate, rfl⟩ := hr
          rcases Nat.lt_or_ge n maxUlts with hlt | hge
          · rw [Biblioteca.hilolayCreate_de hi hlt, Option.some.injEq] at hcreate
            rw [← hcreate]
            exact fitsInt_of_le (by omega)
          · rw [Biblioteca.hilolayCreate_de_of_le hge] at hcreate
            cases hcreate
      | yield => cases hr
      | join thread =>
          cases hr
          exact thread.2
      | wait sem =>
          cases hr
          exact ⟨htid, sem.2⟩
      | signal sem =>
          cases hr
          exact ⟨htid, sem.2⟩
      | salir =>
          cases hr
          exact htid
      | retornar =>
          cases hr
          exact htid
  | cediendo he => rcases he with rfl | rfl <;> cases hetapa
  | _ => cases hetapa

end Conoce

/-! ## What a step changes for the program -/

theorem recibir_ida (hs : p.recibir = .ok p') : p'.ida = p.ida := by
  rw [Proceso.recibir] at hs
  split_ifs at hs
  cases hleer : readInt.run p.vuelta with
  | none =>
      rw [hleer] at hs
      cases hs
  | some r =>
      rw [hleer] at hs
      obtain ⟨i, -, hs⟩ := bind_eq_ok.1 hs
      rw [← pure_eq_ok.1 hs]

/-- `schedule_next` is answered when there is nothing left to handle. -/
theorem Conoce.not_enCamino_of_recibir (h : Conoce p cl) (hs : p.recibir = .ok p') :
    ¬ EnCamino p q :=
  fun hq => (recibir_espera hs).2 (h.vuelta_of_enCamino hq)

theorem Conoce.hilolayInit_ida (h : Conoce p cl) (hs : p.hilolayInit basura = .ok p') :
    p'.ida = p.ida ++ (Pedido.create ((0 : ℕ) : Tid)).bytes := by
  obtain ⟨⟨qs, d, -, -, hrefleja⟩, -⟩ := h
  rw [Proceso.hilolayInit] at hs
  split_ifs at hs with hetapa
  cases hrefleja with
  | iniciando =>
      rw [Biblioteca.initInternal_enCero, Biblioteca.hilolayGetTid_de one_pos (by decide)] at hs
      exact congrArg Proceso.ida (enviar_ok (q := .create ((0 : ℕ) : Tid)) hs)
  | cediendo h => rcases h with rfl | rfl <;> cases hetapa
  | _ => cases hetapa

theorem terminar_ok (hs : p.terminar = .ok p') : p' = { p with etapa := .terminado } := by
  rw [Proceso.terminar] at hs
  split_ifs at hs
  exact (pure_eq_ok.1 hs).symm

theorem pedir_ok (hs : p.pedir basura = .ok p') :
    p' = ⟨p.biblioteca, .esperando, p.ida ++ Pedido.scheduleNext.bytes, p.vuelta⟩ := by
  rw [Proceso.pedir] at hs
  split_ifs at hs
  exact enviar_ok hs

namespace Vista

variable {m : Momento}

/-- The scheduler does not disconnect the program, and handles a close of it only if it was in its
connection, of the ULT that runs. -/
theorem evento (h : Vista env basura pid s p e s' p') (hconoce : Conoce p cl) :
    s' = s ∨ ∃ e', Suse.paso env s e' = .ok s' ∧ e' ≠ .desconectar pid ∧
      ∀ tid ahora, e' = .close pid tid ahora → EnCamino p (.close tid) ∧ cl.corre tid := by
  cases h with
  | @atiende m r ida bytes s' hleer hpaso =>
      obtain ⟨r', qs, d, hr', -, hadm, -⟩ := hconoce.lee hleer
      cases hr'
      have hcamino : EnCamino p r := (hconoce.enCamino_lee hleer).2 (.inl rfl)
      refine .inr ⟨_, hpaso, ?_, fun tid ahora he' => ?_⟩
      · cases r <;> exact fun he' => by cases he'
      · cases r <;> cases he'
        exact ⟨hcamino, hadm⟩
  | despierta hpaso => exact .inr ⟨_, hpaso, by simp, fun _ _ he' => by cases he'⟩
  | ajena hpaso _ he' =>
      refine .inr ⟨_, hpaso, ?_, ?_⟩
      · rintro rfl
        exact he' rfl
      · rintro tid ahora rfl
        exact absurd rfl he'
  | _ => exact .inl rfl

theorem llamada {l : Llamada} (h : Vista env basura pid s p (.llama pid l) s' p') :
    p.llamar basura l = .ok p' := by
  cases h with
  | llama hs => exact hs
  | ajena _ he => exact absurd rfl he
  | quieta he => exact absurd rfl he

/-- What is in the connection stays there until the scheduler handles it. -/
theorem sigue (h : Vista env basura pid s p e s' p') (hconoce : Conoce p cl)
    (hq : EnCamino p q) : EnCamino p' q ∨ ∃ m ida, e = .atiende pid m ∧
      leerPedido.run p.ida = some (some q, ida) ∧ Admite cl q ∧
        Suse.paso env s (q.evento pid m) = .ok s' := by
  cases h with
  | inicia hs =>
      rw [Proceso.hilolayInit] at hs
      split_ifs at hs with hetapa
      exact absurd hetapa (hconoce.ne_iniciando_of_enCamino hq)
  | @llama l p' hs =>
      obtain ⟨tid, hetapa, hget, hida, -⟩ := llamar_ok hs
      cases hr : l.pedido p.biblioteca tid with
      | none =>
          rw [hr, Option.elim_none, List.append_nil] at hida
          exact .inl ((enCamino_congr hida).2 hq)
      | some r =>
          rw [hr, Option.elim_some] at hida
          have hcabe := hconoce.cabe_pedido hetapa hget hr
          exact .inl ((hconoce.enCamino_envia hcabe hida).2 (.inl hq))
  | pide hs =>
      have hida : _ = p.ida ++ Pedido.scheduleNext.bytes := congrArg Proceso.ida (pedir_ok hs)
      exact .inl ((hconoce.enCamino_envia (r := .scheduleNext) trivial hida).2 (.inl hq))
  | recibe hs => exact .inl ((enCamino_congr (recibir_ida hs)).2 hq)
  | termina hs => exact .inl ((enCamino_congr (congrArg Proceso.ida (terminar_ok hs))).2 hq)
  | @atiende m r ida bytes s' hleer hpaso =>
      obtain ⟨r', qs, d, hr', -, hadm, -⟩ := hconoce.lee hleer
      cases hr'
      rcases (hconoce.enCamino_lee hleer).1 hq with rfl | hq
      · exact .inr ⟨m, ida, rfl, hleer, hadm, hpaso⟩
      · exact .inl hq
  | _ => exact .inl hq

/-- What gets into the connection is the request of a call, of `hilolay_init` or of
`schedule_next`. -/
theorem viene (h : Vista env basura pid s p e s' p') (hconoce : Conoce p cl)
    (hq : EnCamino p' q) (hcreate : ∀ nuevo, q ≠ .create nuevo) (hnext : q ≠ .scheduleNext) :
    EnCamino p q ∨ ∃ l tid, e = .llama pid l ∧ p.llamar basura l = .ok p' ∧
      p.biblioteca.hilolayGetTid = some tid ∧ l.pedido p.biblioteca tid = some q := by
  cases h with
  | inicia hs =>
      exact .inl (((hconoce.enCamino_envia (r := .create ((0 : ℕ) : Tid))
        (fitsInt_of_le (Nat.zero_le _)) (hconoce.hilolayInit_ida hs)).1 hq).resolve_right
          (hcreate _))
  | @llama l p' hs =>
      obtain ⟨tid, hetapa, hget, hida, -⟩ := llamar_ok hs
      cases hr : l.pedido p.biblioteca tid with
      | none =>
          rw [hr, Option.elim_none, List.append_nil] at hida
          exact .inl ((enCamino_congr hida).1 hq)
      | some r =>
          rw [hr, Option.elim_some] at hida
          refine ((hconoce.enCamino_envia (hconoce.cabe_pedido hetapa hget hr) hida).1 hq).imp_right
            ?_
          rintro rfl
          exact ⟨l, tid, rfl, hs, hget, hr⟩
  | pide hs =>
      have hida : _ = p.ida ++ Pedido.scheduleNext.bytes := congrArg Proceso.ida (pedir_ok hs)
      exact .inl (((hconoce.enCamino_envia (r := .scheduleNext) trivial hida).1 hq).resolve_right
        hnext)
  | recibe hs => exact .inl ((enCamino_congr (recibir_ida hs)).1 hq)
  | termina hs => exact .inl ((enCamino_congr (congrArg Proceso.ida (terminar_ok hs))).1 hq)
  | @atiende m r ida bytes s' hleer hpaso =>
      exact .inl ((hconoce.enCamino_lee hleer).2 (.inr hq))
  | _ => exact .inl hq

/-- The same ULT goes on until the scheduler has handled what it has sent. -/
theorem hilolayGetTid_eq (h : Vista env basura pid s p e s' p') (hconoce : Conoce p cl)
    (hq : EnCamino p q) (hcreate : ∀ nuevo, q ≠ .create nuevo) :
    p'.biblioteca.hilolayGetTid = p.biblioteca.hilolayGetTid := by
  cases h with
  | inicia hs =>
      rw [Proceso.hilolayInit] at hs
      split_ifs at hs with hetapa
      exact absurd hetapa (hconoce.ne_iniciando_of_enCamino hq)
  | llama hs =>
      obtain ⟨tid, hetapa, -⟩ := llamar_ok hs
      obtain ⟨nuevo, hnuevo⟩ := hconoce.create_of_enCamino hetapa hq
      exact absurd hnuevo (hcreate nuevo)
  | pide hs => rw [pedir_ok hs]
  | recibe hs => exact absurd hq (hconoce.not_enCamino_of_recibir hs)
  | termina hs => rw [terminar_ok hs]
  | _ => rfl

/-- A program that has ended goes on ended. -/
theorem terminado (h : Vista env basura pid s p e s' p') (hetapa : p.etapa = .terminado) :
    p'.etapa = .terminado := by
  cases h with
  | inicia hs =>
      rw [Proceso.hilolayInit, hetapa] at hs
      cases hs
  | llama hs =>
      rw [Proceso.llamar, hetapa] at hs
      cases hs
  | pide hs =>
      rw [Proceso.pedir, hetapa] at hs
      cases hs
  | recibe hs =>
      rw [Proceso.recibir, hetapa] at hs
      cases hs
  | termina hs => rw [terminar_ok hs]
  | _ => exact hetapa

end Vista

end EnCamino

end Hilolay
