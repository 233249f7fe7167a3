import Mathlib.Algebra.Order.BigOperators.Group.List
import Linuse.Sac.Envios
import Linuse.Sac.Historia
import Linuse.Sac.Listado

/-!
# Clients of the mounted file system

Any number of clients call the functions of the file system. Each call sends a request over the
connection of the client and waits for the reply, and the server serves the requests that have
arrived, one at a time and in any order of the clients. Seen from the clients, each call takes
effect at once on the file system of `Vista.Paso`, at some moment before it returns, and a listing
hands over the names of the directory (`montada_of_run`).
-/

namespace Sac

open Memory Locks Locks.Code Wire Transition

variable {m : Montaje} {s s' : Estado} {basura : ℕ → UInt8} {ι : Type*} [DecidableEq ι]

/-! ## What a call returns -/

/-- What a function of the client gives to its caller: what it returns, the bytes in the buffer, the
names that it hands over one by one and the attributes. -/
structure Devuelto where
  valor : ℤ
  texto : List UInt8 := []
  entradas : List (List UInt8) := []
  stat : Option Atributos := none
  deriving DecidableEq

/-- What the function of the request makes of the reply. -/
def Peticion.devuelve (r : Recibido) : Peticion → Devuelto
  | readDir _ => { valor := r.valor, entradas := r.entradas }
  | _ => { valor := r.valor, texto := r.texto, stat := r.stat }

/-- The names of the children of a node, in the order of the table. -/
def Tabla.nombres (t : Tabla) (q : ℕ) : List (List UInt8) :=
  (List.range cantidadNodos).filterMap fun i : ℕ =>
    (t i).bind fun e => if e.father = q then some e.name else none

/-- Success, or `errno` as it is when the call returns. -/
def respuestaEstado (res errno : ℤ) : Devuelto := { valor := if res = 0 then 0 else errno }

/-- The answer to a request, as the function of the client returns it, and what it leaves. The
dates among the attributes are not said. -/
inductive Vista.Ve (v : Vista) : Peticion → (ℤ → Devuelto) → Vista → Prop
  | create {ahora : ℕ} {path : Ruta} {res : ℤ} {t' : Tabla} :
      v.tabla.Crea path (some []) edquot res t' →
      Ve v (.create ahora path) (respuestaEstado res) ⟨t', v.libres⟩
  | mkdir {path : Ruta} {res : ℤ} {t' : Tabla} : v.tabla.Crea path none 1 res t' →
      Ve v (.mkdir path) (respuestaEstado res) ⟨t', v.libres⟩
  | truncate {path : Ruta} {n res : ℤ} {v' : Vista} : v.Trunca path n res v' →
      Ve v (.truncate path n) (respuestaEstado res) v'
  | rename {viejo nuevo : Ruta} {res : ℤ} {t' : Tabla} : v.tabla.Mueve viejo nuevo res t' →
      Ve v (.rename viejo nuevo) (respuestaEstado res) ⟨t', v.libres⟩
  | unlink {path : Ruta} {res : ℤ} {t' : Tabla} : v.tabla.Quita path res t' →
      Ve v (.unlink path) (respuestaEstado res) ⟨t', v.libres⟩
  | rmdir {path : Ruta} {res : ℤ} {t' : Tabla} : v.tabla.Poda path res t' →
      Ve v (.rmdir path) (respuestaEstado res) ⟨t', v.libres⟩
  | write {ahora : ℕ} {path : Ruta} {offset : ℤ} {buf : List UInt8} {res : ℤ} {t' : Tabla} :
      v.Escribe path offset buf res t' →
      Ve v (.write ahora path offset buf)
        (fun _ => { valor := if res = -1 then enospc else res }) ⟨t', v.libres⟩
  | read {path : Ruta} {size offset res : ℤ} {bytes : List UInt8} :
      v.tabla.Lee path size offset res bytes →
      Ve v (.read path size offset) (fun _ => { valor := res, texto := bytes }) v
  | readDir {path : Ruta} {q : ℕ} : v.tabla.nodo path = some q →
      Ve v (.readDir path)
        (fun _ => { valor := 0, entradas := [46] :: [46, 46] :: v.tabla.nombres q }) v
  | sinNodo {ahora : ℕ} {path : Ruta} : v.tabla.nodo path = none →
      Ve v (.getAttr ahora path) (fun _ => { valor := enoent }) v
  | getAttr {ahora k : ℕ} {path : Ruta} {e : Nodo} {a : Sac.Atributos} :
      v.tabla.nodo path = some (k + 1) → v.tabla k = some e → Tabla.Atributos e a →
      Ve v (.getAttr ahora path) (fun _ => { valor := 0, stat := some a.leidos }) v

/-- A read begins at the end of the file or later, or ends inside it, and a listing is of a node
that exists and whose children have names that are not empty and have no `;`. -/
def Peticion.Legible (t : Tabla) : Peticion → Prop
  | read path size offset => ∃ (k : ℕ) (e : Nodo) (bytes : List UInt8),
      t.nodo path = some (k + 1) ∧ t k = some e ∧ e.data = some bytes ∧
        ((bytes.length : ℤ) ≤ offset ∨ offset + size ≤ bytes.length)
  | readDir path => ∃ q : ℕ, t.nodo path = some q ∧
      ∀ i e, t i = some e → e.father = q → e.name ≠ [] ∧ 59 ∉ e.name
  | _ => True

/-- The names that the client cuts out of the text of a listing. -/
theorem tokens_listado {t : Tabla} {q : ℕ}
    (h : ∀ i e, t i = some e → e.father = q → e.name ≠ [] ∧ 59 ∉ e.name) :
    stringSplit (t.listado (some q)) = t.nombres q := by
  have hlistado : t.listado (some q) = ((List.range cantidadNodos).map fun i : ℕ =>
      (t i).elim [] fun e => if e.father = q then e.name else []).flatMap
        fun nombre => nombre ++ [59] := by
    rw [Tabla.listado, List.flatMap_map]
    simp only [Option.some.injEq]
  rw [hlistado, stringSplit, tokens_flatMap ?_, List.filter_map, Tabla.nombres,
    ← List.filterMap_eq_map, List.filterMap_filter]
  · refine List.filterMap_congr fun i _ => ?_
    cases he : t i with
    | none => simp [he]
    | some e =>
        by_cases hq : e.father = q
        · simp [he, hq, (h i e he hq).1]
        · simp [he, hq]
  · intro nombre hmem
    obtain ⟨i, -, rfl⟩ := List.mem_map.1 hmem
    cases he : t i with
    | none => simp
    | some e =>
        by_cases hq : e.father = q
        · simp [hq, (h i e he hq).2]
        · simp [hq]

/-! ## The network -/

/-- A connection: the call that has not returned, and the bytes that each side has sent and the
other one has not read. -/
structure Enlace where
  llamada : Option Peticion
  ida : List UInt8
  vuelta : List UInt8

/-- The disk of the server and the connections of the clients. -/
structure Red (ι : Type*) where
  disco : Estado
  enlace : ι → Enlace

/-- A client answers a call by itself, or sends it; the server serves a request of a client; a call
returns. -/
inductive Suceso (ι : Type*)
  | aqui (c : ι) (p : Peticion)
  | llama (c : ι) (p : Peticion)
  | atiende (c : ι)
  | vuelve (c : ι) (errno : ℤ) (d : Devuelto)

/-- The connection of a client changes. -/
def Red.con (x : Red ι) (disco : Estado) (c : ι) (e : Enlace) : Red ι :=
  ⟨disco, Function.update x.enlace c e⟩

inductive Red.Paso (m : Montaje) (basura : ℕ → UInt8) (x : Red ι) : Suceso ι → Red ι → Prop
  | aqui {c : ι} {p : Peticion} : (x.enlace c).llamada = none → p.SinEnvio →
      Paso m basura x (.aqui c p) x
  | llama {c : ι} {p : Peticion} {tras : ℕ} {envio : List UInt8} :
      (x.enlace c).llamada = none → ¬ p.SinEnvio → p.envio basura tras = some envio →
      Paso m basura x (.llama c p)
        (x.con x.disco c ⟨some p, (x.enlace c).ida ++ envio, (x.enlace c).vuelta⟩)
  | atiende {c : ι} {ahora : ℕ} {p : Peticion} {ida respuesta : List UInt8} {producto : Producto}
      {disco : Estado} : (socketThread ahora).run (x.enlace c).ida = some (p, ida) →
      Sirve m basura x.disco (p, producto) disco → p.respuesta basura producto = some respuesta →
      Paso m basura x (.atiende c)
        (x.con disco c ⟨(x.enlace c).llamada, ida, (x.enlace c).vuelta ++ respuesta⟩)
  | vuelve {c : ι} {p : Peticion} {errno : ℤ} {r : Recibido} {vuelta : List UInt8} :
      (x.enlace c).llamada = some p →
      (p.recibir errno).run (x.enlace c).vuelta = some (r, vuelta) →
      Paso m basura x (.vuelve c errno (p.devuelve r))
        (x.con x.disco c ⟨none, (x.enlace c).ida, vuelta⟩)

/-! ## The file system that the clients share -/

/-- A client: without calls, with a call that has not taken effect, or with what it returns. -/
inductive Fase
  | libre
  | pide (p : Peticion)
  | tiene (d : ℤ → Devuelto)

/-- The table with the count of free blocks, and the clients. -/
structure Montada (ι : Type*) where
  vista : Vista
  fase : ι → Fase

/-- Each call takes effect at once, between its start and its return. -/
inductive Montada.Paso (x : Montada ι) : Suceso ι → Montada ι → Prop
  | aqui {c : ι} {p : Peticion} : x.fase c = .libre → p.SinEnvio → Paso x (.aqui c p) x
  | llama {c : ι} {p : Peticion} : x.fase c = .libre →
      Paso x (.llama c p) ⟨x.vista, Function.update x.fase c (.pide p)⟩
  | atiende {c : ι} {p : Peticion} {d : ℤ → Devuelto} {v' : Vista} : x.fase c = .pide p →
      x.vista.Ve p d v' → Paso x (.atiende c) ⟨v', Function.update x.fase c (.tiene d)⟩
  | vuelve {c : ι} {d : ℤ → Devuelto} {errno : ℤ} : x.fase c = .tiene d →
      Paso x (.vuelve c errno (d errno)) ⟨x.vista, Function.update x.fase c .libre⟩

/-- A connection as its client sees it. -/
def Enlace.fase (e : Enlace) : Fase :=
  e.llamada.elim .libre fun p =>
    if e.vuelta = [] then .pide p
    else .tiene fun errno =>
      ((p.recibir errno).run e.vuelta).elim { valor := 0 } fun r => p.devuelve r.1

def Red.montada (m : Montaje) (x : Red ι) : Montada ι :=
  ⟨x.disco.vista m, fun c => (x.enlace c).fase⟩

/-! ## Replies -/

/-- The function of the client reads the reply to its end and gives this. -/
def Peticion.Entrega (p : Peticion) (respuesta : List UInt8) (d : ℤ → Devuelto) : Prop :=
  respuesta ≠ [] ∧ ∀ errno, ∃ r, Reads (p.recibir errno) respuesta r ∧ p.devuelve r = d errno

theorem entero_append_ne_nil (x : ℤ) (l : List UInt8) : entero x ++ l ≠ [] := fun h => by
  have hlen := congrArg List.length h
  rw [List.length_append, length_entero, List.length_nil] at hlen
  omega

section Respuestas

variable {v v' : Vista} {p : Peticion} {producto : Producto} {path : Ruta} {respuesta : List UInt8}

theorem Peticion.EsEstado.devuelve_eq (hp : p.EsEstado) (valor : ℤ) :
    p.devuelve { valor := valor } = { valor := valor } := by
  cases p <;> first | rfl | exact hp.elim

theorem entrega_estado {res : ℤ} (hp : p.EsEstado) (hres : EsInt res)
    (hrespuesta : p.respuesta basura (.resultado res) = some respuesta) :
    p.Entrega respuesta (respuestaEstado res) := by
  rw [hp.respuesta_eq, Option.some.injEq] at hrespuesta
  subst hrespuesta
  refine ⟨entero_append_ne_nil _ _, fun errno => ⟨_, ?_, hp.devuelve_eq _⟩⟩
  have hreads := reads_helloEstado errno res
  rwa [← hp.recibir_eq, hres.signed_eq] at hreads

theorem ve_estado {res : ℤ} (hp : p.EsEstado)
    (h : v.Paso basura (p, .resultado res) v') : v.Ve p (respuestaEstado res) v' := by
  cases h with
  | create h => exact .create h
  | mkdir h => exact .mkdir h
  | truncate h => exact .truncate h
  | rename h => exact .rename h
  | unlink h => exact .unlink h
  | rmdir h => exact .rmdir h
  | write _ => exact hp.elim

theorem entrega_write {ahora : ℕ} {offset res : ℤ} {buf : List UInt8} (hres : EsInt res)
    (hrespuesta : (Peticion.write ahora path offset buf).respuesta basura (.resultado res) =
      some respuesta) :
    (Peticion.write ahora path offset buf).Entrega respuesta
      fun _ => { valor := if res = -1 then enospc else res } := by
  have hbuffer : bufferResultado basura res = some respuesta := hrespuesta
  rw [bufferResultado_eq, Option.some.injEq] at hbuffer
  subst hbuffer
  refine ⟨entero_append_ne_nil _ _, fun errno =>
    ⟨{ valor := if res = -1 then enospc else res }, ?_, rfl⟩⟩
  have hreads := reads_helloWrite res
  rwa [hres.signed_eq] at hreads

theorem ve_write {ahora : ℕ} {offset res : ℤ} {buf : List UInt8}
    (h : v.Paso basura (.write ahora path offset buf, .resultado res) v') :
    v.Ve (.write ahora path offset buf)
      (fun _ => { valor := if res = -1 then enospc else res }) v' := by
  cases h with
  | write h => exact .write h

/-- A text that fills its buffer. -/
theorem bufferLectura_of_length {size res : ℤ} {texto : List UInt8}
    (h : texto.length = size.toNat) :
    bufferLectura basura size res texto = some (entero res ++ texto) := by
  have hcopia := memcpy_append [] (show texto.length ≤ (malloc basura size.toNat).length by
    rw [length_malloc, h])
  rw [List.nil_append, List.length_nil, List.drop_of_length_le (by rw [length_malloc, h]),
    List.nil_append, List.append_nil] at hcopia
  rw [bufferLectura, hcopia, Option.bind_eq_bind, Option.bind_some]
  refine (sendBuffer_of_consecutive basura ?_ ?_).trans ?_
  · simp [Consecutive, length_entero]
  · simp [length_entero, h]
  · simp

theorem entrega_read {size offset res : ℤ} {texto : List UInt8} (hpos : 0 < size)
    (hsize : size < 2147483648) (hres : res = texto.length) (htodo : res = 0 ∨ res = size)
    (hrespuesta : (Peticion.read path size offset).respuesta basura (.leido res texto) =
      some respuesta) :
    (Peticion.read path size offset).Entrega respuesta
      fun _ => { valor := res, texto := texto } := by
  have hbuffer : tomarPeticionRead basura size res texto = some respuesta := hrespuesta
  rw [tomarPeticionRead, responderLectura, Option.bind_eq_bind] at hbuffer
  rcases htodo with hcero | rfl
  · subst hcero
    obtain rfl : texto = [] := List.eq_nil_of_length_eq_zero (by omega)
    have hvacio : sendBuffer basura 4 [(0, entero 0)] = some (entero 0) := by
      refine (sendBuffer_of_consecutive basura ?_ ?_).trans ?_
      · simp [Consecutive]
      · simp [length_entero]
      · simp
    rw [if_pos rfl, hvacio, Option.bind_some, if_neg (by decide)] at hbuffer
    obtain rfl := Option.some.inj hbuffer
    refine ⟨?_, fun errno => ⟨_, reads_helloRead_vacio size, rfl⟩⟩
    rw [← List.append_nil (entero 0)]
    exact entero_append_ne_nil _ _
  · rw [if_neg (by omega), bufferLectura_of_length (by omega), Option.bind_some,
      if_neg (by omega)] at hbuffer
    obtain rfl := Option.some.inj hbuffer
    have hsigned : signed res = res := signed_eq_self (by omega) hsize
    exact ⟨entero_append_ne_nil _ _, fun errno =>
      ⟨_, reads_helloRead (by omega) (by omega), rfl⟩⟩

/-- What a read that begins at the end or ends inside answers. -/
theorem Tabla.Lee.todo {t : Tabla} {size offset res : ℤ} {texto : List UInt8} (hpos : 0 ≤ size)
    (hoffset : 0 ≤ offset) (h : t.Lee path size offset res texto)
    (hlegible : (Peticion.read path size offset).Legible t) :
    res = texto.length ∧ (res = 0 ∨ res = size) := by
  obtain ⟨k, e, bytes, hnodo, hentrada, hdatos, hdentro⟩ := hlegible
  cases h with
  | falta hfalta =>
      rw [hnodo] at hfalta
      cases hfalta
  | @lee k' e' bytes' hnodo' hentrada' hdatos' =>
      obtain rfl : k = k' := by simpa [hnodo] using hnodo'
      rw [hentrada, Option.some.injEq] at hentrada'
      rw [← hentrada', hdatos, Option.some.injEq] at hdatos'
      subst hdatos'
      refine ⟨rfl, ?_⟩
      rw [List.length_take, List.length_drop]
      omega

theorem entrega_readDir {q : ℕ} (hlen : (v.tabla.listado (some q)).length < 2147483648)
    (h : v.Paso basura (.readDir path, producto) v') (hnodo : v.tabla.nodo path = some q)
    (hnombres : ∀ i e, v.tabla i = some e → e.father = q → e.name ≠ [] ∧ 59 ∉ e.name)
    (hrespuesta : (Peticion.readDir path).respuesta basura producto = some respuesta) :
    (Peticion.readDir path).Entrega respuesta
      fun _ => { valor := 0, entradas := [46] :: [46, 46] :: v.tabla.nombres q } := by
  cases h with
  | @readDir _ mensaje error herror hmensaje =>
      rw [hnodo, if_neg (Option.some_ne_none q), Option.some.injEq] at herror
      have hflatten : some (error ++ [mensaje]).flatten = some respuesta := hrespuesta
      rw [← herror, List.nil_append, List.flatten_singleton, Option.some.injEq] at hflatten
      rw [bufferReadDir_eq, Option.some.injEq, hnodo] at hmensaje
      rw [← hflatten, ← hmensaje]
      refine ⟨?_, fun errno => ⟨_, reads_helloReaddir hlen, ?_⟩⟩
      · rw [List.append_assoc]
        exact entero_append_ne_nil _ _
      · rw [Peticion.devuelve, Recibido.entradas, if_pos rfl, tokens_listado hnombres]

/-- A listing is short. -/
theorem length_listado_le {t : Tabla} (h : ∀ k e, t k = some e → e.name.length ≤ 71)
    (q : Option ℕ) :
    (t.listado q).length ≤ 73728 := by
  rw [Tabla.listado, List.length_flatMap]
  refine (List.sum_le_card_nsmul _ 72 fun n hn => ?_).trans (by simp [cantidadNodos])
  obtain ⟨i, -, rfl⟩ := List.mem_map.1 hn
  rw [List.length_append, List.length_singleton]
  refine Nat.succ_le_succ ?_
  cases he : t i with
  | none => exact Nat.zero_le _
  | some e =>
      rw [Option.elim_some]
      split_ifs
      · exact h i e he
      · exact Nat.zero_le _

/-- The root is not found below itself. -/
theorem nodo_ne_zero {t : Tabla} (hpath : path.cola ≠ []) : t.nodo path ≠ some 0 := by
  intro hnodo
  rcases Catalog.resolve_eq_some_cases hnodo with ⟨hnil, -⟩ | ⟨i, -, hcero, -⟩
  · rw [componentes, if_neg hpath] at hnil
    exact List.splitOn_ne_nil _ _ hnil
  · cases hcero

theorem entrega_getAttr {ahora : ℕ} (hpath : path.cola ≠ [])
    (h : v.Paso basura (.getAttr ahora path, producto) v')
    (hrespuesta : (Peticion.getAttr ahora path).respuesta basura producto = some respuesta) :
    ∃ d, v.Ve (.getAttr ahora path) d v' ∧
      (Peticion.getAttr ahora path).Entrega respuesta d := by
  have hflatten : ∀ mensaje : List UInt8,
      (Peticion.getAttr ahora path).respuesta basura (.mensajes [mensaje]) = some mensaje := by
    intro mensaje
    simp [Peticion.respuesta]
  cases h with
  | getAttr h =>
      cases h with
      | @falta mensaje hfalta hmensaje =>
          rw [hflatten, Option.some.injEq] at hrespuesta
          rw [Peticion.bufferError_eq, Option.some.injEq] at hmensaje
          rw [← hrespuesta, ← hmensaje]
          refine ⟨_, .sinNodo hfalta, entero_append_ne_nil _ _, fun errno =>
            ⟨{ valor := enoent }, ?_, rfl⟩⟩
          rw [← List.append_nil (entero 4 ++ entero (-1))]
          exact (reads_leerEntero (-1)).bind (Reads.pure ({ valor := enoent } : Recibido))
      | raiz hraiz _ => exact absurd hraiz (nodo_ne_zero hpath)
      | @nodo k e a mensaje hnodo hentrada hatributos _ hmensaje =>
          rw [hflatten, Option.some.injEq] at hrespuesta
          rw [bufferAtributos_eq, Option.some.injEq] at hmensaje
          rw [← hrespuesta, ← hmensaje]
          refine ⟨_, .getAttr hnodo hentrada hatributos, ?_, fun errno =>
            ⟨_, Peticion.reads_helloGetattr a, rfl⟩⟩
          rw [List.append_assoc]
          exact entero_append_ne_nil _ _

/-- The names of a directory, as the client gets them. -/
theorem entrega_of_readDir (hm : Formateado m) (hs : Integro m s)
    (hguarda : (Peticion.readDir path).Guarda m s) {q : ℕ} (hq : (s.tabla m).nodo path = some q)
    (hhijos : ∀ i e, s.tabla m i = some e → e.father = q → e.name ≠ [] ∧ 59 ∉ e.name)
    (hsirve : Sirve m basura s (.readDir path, producto) s')
    (hrespuesta : (Peticion.readDir path).respuesta basura producto = some respuesta) :
    (Peticion.readDir path).Entrega respuesta
      fun _ => { valor := 0, entradas := [46] :: [46, 46] :: (s.tabla m).nombres q } := by
  have hnombres : ∀ k e, s.tabla m k = some e → e.name.length ≤ 71 := by
    intro k e he
    obtain ⟨-, -, rfl⟩ := tabla_eq_some.1 he
    exact length_cadena_le _ _ _
  have hlen : ((s.vista m).tabla.listado (some q)).length < 2147483648 :=
    lt_of_le_of_lt (length_listado_le hnombres (some q)) (by decide)
  obtain ⟨-, hpaso⟩ := paso_of_sirve hm hs hguarda hsirve
  have hentrega := entrega_readDir hlen hpaso hq hhijos hrespuesta
  rwa [Estado.vista] at hentrega

/-- The answer to a careful request, as its client gets it. -/
theorem ve_of_sirve (hm : Formateado m) (hs : Integro m s) (hguarda : p.Guarda m s)
    (hlegible : p.Legible (s.tabla m)) (henvia : ¬ p.SinEnvio) (hmanda : p.Manda)
    (hsirve : Sirve m basura s (p, producto) s')
    (hrespuesta : p.respuesta basura producto = some respuesta) :
    ∃ d, (s.vista m).Ve p d (s'.vista m) ∧ p.Entrega respuesta d := by
  obtain ⟨-, hpaso⟩ := paso_of_sirve hm hs hguarda hsirve
  obtain ⟨fuel, heval⟩ := hsirve
  have hestado : p.EsEstado →
      ∃ d, (s.vista m).Ve p d (s'.vista m) ∧ p.Entrega respuesta d := by
    intro hp
    obtain ⟨res, rfl, hres⟩ := hp.eval_codigo heval
    exact ⟨_, ve_estado hp hpaso, entrega_estado hp hres hrespuesta⟩
  cases p with
  | create ahora path => exact hestado trivial
  | mkdir path => exact hestado trivial
  | unlink path => exact hestado trivial
  | rmdir path => exact hestado trivial
  | truncate path n => exact hestado trivial
  | rename viejo nuevo => exact hestado trivial
  | write ahora path offset buf =>
      obtain ⟨res, t, hescribir, hfin⟩ := eval_bind_some heval
      cases hfin
      have hres : EsInt res := returns_oWrite m hmanda.2 s _ hescribir
      exact ⟨_, ve_write hpaso, entrega_write hres hrespuesta⟩
  | read path size offset =>
      obtain ⟨⟨res, texto⟩, t, hleer, hfin⟩ := eval_bind_some heval
      cases hfin
      obtain ⟨k, e, bytes, hnodo, -⟩ := id hlegible
      have hsano := hguarda.resolve_left fun hfalta => by
        rw [(nodo_eq_none hs.fichas).2 hfalta] at hnodo
        cases hnodo
      obtain ⟨rfl, hlee⟩ := lee_of_eval hs hguarda hleer
      obtain ⟨hres, htodo⟩ := hlee.todo hsano.pos.le hsano.desde hlegible
      exact ⟨_, .read hlee, entrega_read hsano.pos hsano.size_lt hres htodo hrespuesta⟩
  | readDir path =>
      obtain ⟨q, hq, hhijos⟩ := hlegible
      have hentrega := entrega_of_readDir hm hs hguarda hq hhijos ⟨fuel, heval⟩ hrespuesta
      obtain ⟨enviados, t, hlistar, hfin⟩ := eval_bind_some heval
      cases hfin
      obtain ⟨rfl, -⟩ := lista_of_eval hs.fichas hguarda hlistar
      exact ⟨_, .readDir hq, hentrega⟩
  | getAttr ahora path => exact entrega_getAttr henvia hpaso hrespuesta

end Respuestas

/-! ## The clock -/

namespace Peticion

variable {p : Peticion} {ahora : ℕ}

/-- The request with the clock of the server. -/
def conReloj (ahora : ℕ) : Peticion → Peticion
  | create _ path => create ahora path
  | getAttr _ path => getAttr ahora path
  | write _ path offset buf => write ahora path offset buf
  | otra => otra

/-- The sizes and the offsets of the request are values of an `int`. -/
def Exacta : Peticion → Prop
  | read _ size offset => EsInt size ∧ EsInt offset
  | write _ _ offset _ => EsInt offset
  | truncate _ espacioNuevo => EsInt espacioNuevo
  | _ => True

theorem recibida_eq (h : p.Exacta) : p.recibida ahora = p.conReloj ahora := by
  cases p with
  | read path size offset =>
      rw [recibida, h.1.signed_eq, h.2.signed_eq]
      rfl
  | write _ path offset buf => rw [recibida, conReloj, EsInt.signed_eq h]
  | truncate path n =>
      rw [recibida, EsInt.signed_eq h]
      rfl
  | _ => rfl

theorem guarda_conReloj (h : p.Guarda m s) : (p.conReloj ahora).Guarda m s := by
  cases p <;> exact h

theorem legible_conReloj {t : Tabla} (h : p.Legible t) : (p.conReloj ahora).Legible t := by
  cases p <;> exact h

theorem not_sinEnvio_conReloj (h : ¬ p.SinEnvio) : ¬ (p.conReloj ahora).SinEnvio := by
  cases p <;> exact h

theorem manda_conReloj (h : p.Manda) : (p.conReloj ahora).Manda := by
  cases p <;> exact h

theorem entrega_conReloj {respuesta : List UInt8} {d : ℤ → Devuelto}
    (h : (p.conReloj ahora).Entrega respuesta d) : p.Entrega respuesta d := by
  cases p <;> exact h

theorem ve_conReloj {v v' : Vista} {d : ℤ → Devuelto} (h : v.Ve (p.conReloj ahora) d v') :
    v.Ve p d v' := by
  cases p with
  | create _ path =>
      cases h with
      | create h => exact .create h
  | getAttr _ path =>
      cases h with
      | sinNodo h => exact .sinNodo h
      | getAttr h h' h'' => exact .getAttr h h' h''
  | write _ path offset buf =>
      cases h with
      | write h => exact .write h
  | _ => exact h

end Peticion

/-! ## What is in the streams -/

/-- What is in the streams of a connection: nothing, the request of the call that has not returned,
or its reply. -/
inductive Enlace.EnOrden (basura : ℕ → UInt8) : Enlace → Prop
  | libre : EnOrden basura ⟨none, [], []⟩
  | enviado {p : Peticion} {tras : ℕ} {envio : List UInt8} : ¬ p.SinEnvio → p.Manda → p.Exacta →
      p.envio basura tras = some envio → EnOrden basura ⟨some p, envio, []⟩
  | atendido {p : Peticion} {respuesta : List UInt8} {d : ℤ → Devuelto} :
      p.Entrega respuesta d → EnOrden basura ⟨some p, [], respuesta⟩

/-- The disk is sound and the streams are in order. -/
structure Red.Sana (m : Montaje) (basura : ℕ → UInt8) (x : Red ι) : Prop where
  disco : Integro m x.disco
  enlaces : ∀ c, (x.enlace c).EnOrden basura

/-- What is sent fits in an `int`, and a request that is served is careful. -/
def Suceso.Cuida (m : Montaje) (x : Red ι) : Suceso ι → Prop
  | llama _ p => p.Manda ∧ p.Exacta
  | atiende c => ∀ p, (x.enlace c).llamada = some p →
      p.Guarda m x.disco ∧ p.Legible (x.disco.tabla m)
  | _ => True

theorem fase_libre : (Enlace.mk none [] []).fase = .libre := rfl

theorem fase_atendido {p : Peticion} {respuesta : List UInt8} {d : ℤ → Devuelto}
    (h : p.Entrega respuesta d) (ida : List UInt8) :
    (Enlace.mk (some p) ida respuesta).fase = .tiene d := by
  rw [Enlace.fase, Option.elim_some, if_neg h.1]
  congr 1
  funext errno
  obtain ⟨r, hreads, hdevuelve⟩ := h.2 errno
  rw [hreads.run_self]
  exact hdevuelve

theorem Red.con_self (x : Red ι) (disco : Estado) (c : ι) (e : Enlace) :
    (x.con disco c e).enlace c = e := Function.update_self _ _ _

theorem Red.con_of_ne (x : Red ι) (disco : Estado) {c c' : ι} (e : Enlace) (h : c' ≠ c) :
    (x.con disco c e).enlace c' = x.enlace c' := Function.update_of_ne h _ _

theorem montada_con (x : Red ι) (disco : Estado) (c : ι) (e : Enlace) :
    (x.con disco c e).montada m =
      ⟨disco.vista m, Function.update (x.montada m).fase c e.fase⟩ := by
  have hfase : ((x.con disco c e).montada m).fase =
      Function.update (x.montada m).fase c e.fase := by
    funext c'
    rcases eq_or_ne c' c with rfl | hne
    · rw [Function.update_self]
      exact congrArg Enlace.fase (x.con_self disco c' e)
    · rw [Function.update_of_ne hne]
      exact congrArg Enlace.fase (x.con_of_ne disco e hne)
  rw [← hfase]
  rfl

theorem Red.Sana.con {x : Red ι} (h : x.Sana m basura) {disco : Estado} (hdisco : Integro m disco)
    {c : ι} {e : Enlace} (he : e.EnOrden basura) : (x.con disco c e).Sana m basura where
  disco := hdisco
  enlaces c' := by
    rcases eq_or_ne c' c with rfl | hne
    · rwa [Red.con_self]
    · rw [Red.con_of_ne x disco e hne]
      exact h.enlaces c'

/-- No function of the client reads its reply from nothing. -/
theorem Peticion.run_recibir_nil (p : Peticion) (errno : ℤ) : (p.recibir errno).run [] = none := by
  cases p <;> rfl

/-- A connection without calls has nothing in its streams. -/
theorem Enlace.EnOrden.eq_libre {e : Enlace} (h : e.EnOrden basura) (hlibre : e.llamada = none) :
    e = ⟨none, [], []⟩ := by
  cases h with
  | libre => rfl
  | enviado _ _ _ _ => cases hlibre
  | atendido _ => cases hlibre

/-- The server reads the request of the call. -/
theorem Enlace.EnOrden.atiende {e : Enlace} (h : e.EnOrden basura) {ahora : ℕ} {p' : Peticion}
    {ida : List UInt8} (hrun : (socketThread ahora).run e.ida = some (p', ida)) :
    ∃ p envio, e = ⟨some p, envio, []⟩ ∧ ida = [] ∧ ¬ p.SinEnvio ∧ p.Manda ∧
      p' = p.conReloj ahora := by
  cases h with
  | libre => cases hrun
  | @enviado p tras envio henvia hmanda hexacta henvio =>
      obtain ⟨l, hl, hreads⟩ := reads_envio basura tras ahora hmanda
      rw [henvio, Option.some.injEq] at hl
      dsimp only at hrun
      rw [hl, hreads.run_self, Option.some.injEq, Prod.mk.injEq,
        Peticion.recibida_eq hexacta] at hrun
      exact ⟨p, envio, rfl, hrun.2.symm, henvia, hmanda, hrun.1.symm⟩
  | atendido _ => cases hrun

/-- The client reads the reply to its call. -/
theorem Enlace.EnOrden.vuelve {e : Enlace} (h : e.EnOrden basura) {errno : ℤ} {p : Peticion}
    {r : Recibido} {vuelta : List UInt8} (hllamada : e.llamada = some p)
    (hrun : (p.recibir errno).run e.vuelta = some (r, vuelta)) :
    ∃ d, e.ida = [] ∧ vuelta = [] ∧ e.fase = .tiene d ∧ p.devuelve r = d errno := by
  cases h with
  | libre => cases hllamada
  | enviado _ _ _ _ =>
      obtain rfl := Option.some.inj hllamada
      rw [Peticion.run_recibir_nil] at hrun
      cases hrun
  | @atendido p' respuesta d hentrega =>
      obtain rfl := Option.some.inj hllamada
      obtain ⟨r', hreads, hdevuelve⟩ := hentrega.2 errno
      dsimp only at hrun
      rw [hreads.run_self, Option.some.injEq, Prod.mk.injEq] at hrun
      exact ⟨d, rfl, hrun.2.symm, fase_atendido hentrega [], hrun.1 ▸ hdevuelve⟩

/-- A step of the network is a step of the file system that the clients share. -/
theorem Red.Paso.montada (hm : Formateado m) {x x' : Red ι} {e : Suceso ι}
    (hx : x.Sana m basura) (hcuida : e.Cuida m x) (h : Red.Paso m basura x e x') :
    x'.Sana m basura ∧ (x.montada m).Paso e (x'.montada m) := by
  cases h with
  | @aqui c p hlibre hlocal =>
      have henlace := (hx.enlaces c).eq_libre hlibre
      have hfase : (x.montada m).fase c = .libre := congrArg Enlace.fase henlace
      exact ⟨hx, .aqui hfase hlocal⟩
  | @llama c p tras envio hlibre henvia henvio =>
      have henlace := (hx.enlaces c).eq_libre hlibre
      have hfase : (x.montada m).fase c = .libre := congrArg Enlace.fase henlace
      rw [henlace, montada_con]
      exact ⟨hx.con hx.disco (.enviado henvia hcuida.1 hcuida.2 henvio), .llama hfase⟩
  | @atiende c ahora p' ida respuesta producto disco hrun hsirve hrespuesta =>
      obtain ⟨p, envio, henlace, rfl, henvia, hmanda, rfl⟩ := (hx.enlaces c).atiende hrun
      have hfase : (x.montada m).fase c = .pide p := congrArg Enlace.fase henlace
      obtain ⟨hguarda, hlegible⟩ := hcuida p (by rw [henlace])
      have hguarda' : (p.conReloj ahora).Guarda m x.disco := Peticion.guarda_conReloj hguarda
      obtain ⟨d, hve, hentrega⟩ := ve_of_sirve hm hx.disco hguarda'
        (Peticion.legible_conReloj hlegible) (Peticion.not_sinEnvio_conReloj henvia)
        (Peticion.manda_conReloj hmanda) hsirve hrespuesta
      have hentrega' := Peticion.entrega_conReloj hentrega
      obtain ⟨hefecto, -⟩ := paso_of_sirve hm hx.disco hguarda' hsirve
      rw [henlace, List.nil_append, montada_con, fase_atendido hentrega']
      exact ⟨hx.con (hx.disco.efecto hefecto) (.atendido hentrega'),
        .atiende hfase (Peticion.ve_conReloj hve)⟩
  | @vuelve c p errno r vuelta hllamada hrun =>
      obtain ⟨d, hida, rfl, hfase, hdevuelve⟩ := (hx.enlaces c).vuelve hllamada hrun
      rw [hida, montada_con, hdevuelve]
      exact ⟨hx.con hx.disco .libre, .vuelve hfase⟩

/-- From a sound disk and empty streams, whatever the order in which the clients call, the server
serves and the calls return, every call gives what the file system that the clients share answers
when it takes effect. -/
theorem montada_of_run (m : Montaje) (hm : Formateado m) (basura : ℕ → UInt8) (x₀ : Red ι)
    (hdisco : Integro m x₀.disco) (henlaces : ∀ c, x₀.enlace c = ⟨none, [], []⟩) {x : Red ι}
    {tr : List (Step (Red ι) (Suceso ι))} (hrun : Run (Red.Paso m basura) x₀ tr x)
    (h : ∀ y ∈ tr, y.label.Cuida m y.pre) :
    Run Montada.Paso ⟨x₀.disco.vista m, fun _ => .libre⟩ (tr.map (Step.map (Red.montada m)))
      (x.montada m) := by
  have hinicio : x₀.montada m = ⟨x₀.disco.vista m, fun _ => .libre⟩ := by
    rw [Red.montada]
    congr 1
    funext c
    rw [henlaces c, fase_libre]
  have hsana : x₀.Sana m basura := ⟨hdisco, fun c => henlaces c ▸ .libre⟩
  rw [← hinicio]
  exact (hrun.simulate (Red.montada m) (Red.Sana m basura)
    (fun y : Step (Red ι) (Suceso ι) => y.label.Cuida m y.pre) hsana
    (fun _ _ _ hx hcuida hpaso => hpaso.montada hm hx hcuida) h).2

/-! ### Two clients that call in turns -/

section Turnos

variable {x₀ : Red ι} {sucesos : List (Suceso ι)} {producto : Producto}
  {respuesta : List UInt8} {d : ℤ → Devuelto}

/-- These things happen, with care, and leave this disk and nothing in the streams. -/
def Atendidos (m : Montaje) (basura : ℕ → UInt8) (x₀ : Red ι) (sucesos : List (Suceso ι))
    (s : Estado) : Prop :=
  ∃ (tr : List (Step (Red ι) (Suceso ι))) (x : Red ι), Run (Red.Paso m basura) x₀ tr x ∧
    (∀ y ∈ tr, y.label.Cuida m y.pre) ∧ tr.map Step.label = sucesos ∧ x.disco = s ∧
      ∀ c, x.enlace c = ⟨none, [], []⟩

/-- A client calls and waits for its reply. -/
theorem Atendidos.llamada (h : Atendidos m basura x₀ sucesos s) (c : ι) (p : Peticion) (errno : ℤ)
    (hreloj : p.recibida 0 = p) (henvia : ¬ p.SinEnvio) (hmanda : p.Manda) (hexacta : p.Exacta)
    (hguarda : p.Guarda m s) (hlegible : p.Legible (s.tabla m))
    (hsirve : Sirve m basura s (p, producto) s')
    (hrespuesta : p.respuesta basura producto = some respuesta) (hentrega : p.Entrega respuesta d) :
    Atendidos m basura x₀
      (sucesos ++ [.llama c p, .atiende c, .vuelve c errno (d errno)]) s' := by
  obtain ⟨tr, x, hrun, hcuida, rfl, rfl, hvacios⟩ := h
  obtain ⟨envio, henvio, hreads⟩ := reads_envio basura 0 0 hmanda
  obtain ⟨r, hlee, hdevuelve⟩ := hentrega.2 errno
  rw [hreloj] at hreads
  let x₁ := x.con x.disco c ⟨some p, envio, []⟩
  let x₂ := x₁.con s' c ⟨some p, [], respuesta⟩
  have hx : x.enlace c = ⟨none, [], []⟩ := hvacios c
  have hx₁ : x₁.enlace c = ⟨some p, envio, []⟩ := x.con_self _ _ _
  have hx₂ : x₂.enlace c = ⟨some p, [], respuesta⟩ := x₁.con_self _ _ _
  have hllama : Red.Paso m basura x (.llama c p) x₁ := by
    have hpaso : Red.Paso m basura x (.llama c p)
        (x.con x.disco c ⟨some p, (x.enlace c).ida ++ envio, (x.enlace c).vuelta⟩) :=
      .llama (by rw [hx]) henvia henvio
    rwa [hx] at hpaso
  have hatiende : Red.Paso m basura x₁ (.atiende c) x₂ := by
    have hpaso : Red.Paso m basura x₁ (.atiende c)
        (x₁.con s' c ⟨(x₁.enlace c).llamada, [], (x₁.enlace c).vuelta ++ respuesta⟩) :=
      .atiende (by rw [hx₁]; exact hreads.run_self) hsirve hrespuesta
    rwa [hx₁] at hpaso
  have hvuelve : Red.Paso m basura x₂ (.vuelve c errno (d errno))
      (x₂.con s' c ⟨none, [], []⟩) := by
    have hpaso : Red.Paso m basura x₂ (.vuelve c errno (p.devuelve r))
        (x₂.con x₂.disco c ⟨none, (x₂.enlace c).ida, []⟩) :=
      .vuelve (by rw [hx₂]) (by rw [hx₂]; exact hlee.run_self)
    rwa [hx₂, hdevuelve] at hpaso
  refine ⟨_, _, ((hrun.snoc hllama).snoc hatiende).snoc hvuelve, fun y hy => ?_, ?_, rfl,
    fun c' => ?_⟩
  · simp only [List.mem_append, List.mem_singleton] at hy
    rcases hy with ((hy | rfl) | rfl) | rfl
    · exact hcuida y hy
    · exact ⟨hmanda, hexacta⟩
    · intro p' hp'
      rw [hx₁, Option.some.injEq] at hp'
      subst hp'
      exact ⟨hguarda, hlegible⟩
    · trivial
  · simp
  · rcases eq_or_ne c' c with rfl | hne
    · exact Red.con_self _ _ _ _
    · rw [Red.con_of_ne _ _ _ hne, Red.con_of_ne _ _ _ hne, Red.con_of_ne _ _ _ hne]
      exact hvacios c'

end Turnos

/-- The empty disk and two clients. -/
def redMontada : Red Bool := ⟨discoMontado, fun _ => ⟨none, [], []⟩⟩

def listarRaiz : Peticion := .readDir rutaRaiz

theorem nombresEnDisco_montajeChico : NombresEnDisco montajeChico := by
  rw [NombresEnDisco]
  decide

/-- The table with `/a` and `/e` may be listed. -/
theorem legible_listarRaiz : listarRaiz.Legible (discoConE.tabla montajeChico) := by
  have hnombres : ∀ k < 2, (tablaCon [101] k).all fun e => e.name ≠ [] ∧ 59 ∉ e.name := by decide
  refine ⟨0, rfl, fun i e he _ => ?_⟩
  rw [tabla_discoConE] at he
  rcases lt_or_ge i 2 with hlt | hge
  · have hnombre := hnombres i hlt
    rw [he, Option.all_some] at hnombre
    exact of_decide_eq_true hnombre
  · rw [tablaCon_desde hge] at he
    cases he

/-- The root has `a` and `e`. -/
theorem sirve_listarRaiz : ∃ producto respuesta, Sirve montajeChico (fun _ => 0) discoConE
    (listarRaiz, producto) discoConE ∧ listarRaiz.respuesta (fun _ => 0) producto = some respuesta ∧
      listarRaiz.Entrega respuesta
        fun _ => { valor := 0, entradas := [[46], [46, 46], [97], [101]] } := by
  obtain ⟨q, hq, hnombres⟩ := legible_listarRaiz
  obtain rfl : 0 = q := Option.some.inj hq
  have hlista : (discoConE.tabla montajeChico).nombres 0 = [[97], [101]] := by
    rw [tabla_discoConE]
    decide +kernel
  have hsirve : Sirve montajeChico (fun _ => 0) discoConE (listarRaiz, .mensajes _) discoConE :=
    ⟨0, by rw [listarRaiz, Peticion.codigo, eval_bind, Peticion.eval_oReadDir, Option.bind_some,
      eval_pure]⟩
  have hentrega := entrega_of_readDir formateado_montajeChico integro_discoConE
    nombresEnDisco_montajeChico hq hnombres hsirve rfl
  rw [hlista] at hentrega
  exact ⟨_, _, hsirve, rfl, hentrega⟩

/-- The calls of the two clients, with what they give. -/
def llamadas : List (Suceso Bool) :=
  [.llama false crearA, .atiende false, .vuelve false 5 { valor := 0 },
    .llama true escribirA, .atiende true, .vuelve true 5 { valor := 3 },
    .llama false acortarA, .atiende false, .vuelve false 5 { valor := 0 },
    .llama true crearD, .atiende true, .vuelve true 5 { valor := 0 },
    .llama false moverD, .atiende false, .vuelve false 5 { valor := 0 },
    .llama true listarRaiz, .atiende true,
    .vuelve true 5 { valor := 0, entradas := [[46], [46, 46], [97], [101]] },
    .llama false quitarE, .atiende false, .vuelve false 5 { valor := 0 }]

theorem atendidos_llamadas : Atendidos montajeChico (fun _ => 0) redMontada llamadas discoSinE := by
  have hcero : ∀ {p : Peticion}, p.EsEstado → p.respuesta (fun _ => 0) (.resultado 0) =
      some (entero 4 ++ entero 0) := fun hp => hp.respuesta_eq 0
  have hentrega : ∀ {p : Peticion}, p.EsEstado → p.Entrega (entero 4 ++ entero 0)
      (respuestaEstado 0) := fun hp => entrega_estado hp esInt_zero (hcero hp)
  have htres : escribirA.respuesta (fun _ => 0) (.resultado 3) = some (entero 4 ++ entero 3) :=
    bufferResultado_eq 3
  obtain ⟨producto, respuesta, hsirve, hrespuesta, hlista⟩ := sirve_listarRaiz
  have hA : rutaA.bytes.length < 2147483648 := by decide
  have hD : rutaD.bytes.length < 2147483648 := by decide
  have hE : rutaE.bytes.length < 2147483648 := by decide
  have hraiz : rutaRaiz.bytes.length < 2147483648 := by decide
  have hdos : EsInt 2 := by decide
  have hinicio : Atendidos montajeChico (fun _ => 0) redMontada [] discoMontado :=
    ⟨[], redMontada, .nil, List.forall_mem_nil _, rfl, rfl, fun _ => rfl⟩
  have hcrear := hinicio.llamada false crearA 5 rfl not_false hA trivial guarda_crearA trivial
    sirve_crearA (hcero trivial) (hentrega trivial)
  have hescribir := hcrear.llamada true escribirA 5 rfl not_false ⟨hA, by decide⟩ esInt_zero
    guarda_escribirA trivial sirve_escribirA htres (entrega_write (by decide) htres)
  have hacortar := hescribir.llamada false acortarA 5 rfl not_false hA hdos guarda_acortarA trivial
    sirve_acortarA (hcero trivial) (hentrega trivial)
  have hcarpeta := hacortar.llamada true crearD 5 rfl not_false hD trivial guarda_crearD trivial
    sirve_crearD (hcero trivial) (hentrega trivial)
  have hmover := hcarpeta.llamada false moverD 5 rfl not_false ⟨hD, hE⟩ trivial guarda_moverD
    trivial sirve_moverD (hcero trivial) (hentrega trivial)
  have hlistar := hmover.llamada true listarRaiz 5 rfl not_false hraiz trivial
    nombresEnDisco_montajeChico legible_listarRaiz hsirve hrespuesta hlista
  exact hlistar.llamada false quitarE 5 rfl not_false hE trivial guarda_quitarE trivial
    sirve_quitarE (hcero trivial) (hentrega trivial)

theorem montada_of_run_llamadas : ∃ (x : Red Bool) (tr : List (Step (Red Bool) (Suceso Bool))),
    tr.map Step.label = llamadas ∧ Run (Red.Paso montajeChico fun _ => 0) redMontada tr x ∧
      Run Montada.Paso ⟨discoMontado.vista montajeChico, fun _ => .libre⟩
        (tr.map (Step.map (Red.montada montajeChico))) (x.montada montajeChico) := by
  obtain ⟨tr, x, hrun, hcuida, hsucesos, -, -⟩ := atendidos_llamadas
  exact ⟨x, tr, hsucesos, hrun, montada_of_run montajeChico formateado_montajeChico (fun _ => 0)
    redMontada vacio_discoMontado.integro (fun _ => rfl) hrun hcuida⟩

end Sac
