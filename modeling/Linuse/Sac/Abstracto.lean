import Mathlib.Order.Bounds.Basic
import Linuse.Collections.Overwrite
import Linuse.Sac.Peticiones
import Linuse.Sac.Tabla

/-!
# The file system that a client sees

The requests on a table of named nodes, without blocks, bitmap or positions: a file holds a list of
bytes and a directory holds nothing. Next to the table there is only the count of free blocks of the
server, on which it depends whether a file may grow. `Vista.Paso` says what each request answers and
what it leaves. Nothing here is read off the disk, except the form of the messages.
-/

namespace Sac

open Memory

/-- The name at the end of a path. -/
def Ruta.nombre (path : Ruta) : List UInt8 := (componentes path.cola).getLastD []

/-- What a node of the table is. -/
abbrev Nodo := Entry (List UInt8) (Option (List UInt8))

/-- The bytes of a file have `n` bytes now, the same ones as before where there were some. -/
def Conserva (bytes : List UInt8) (n : ℤ) (bytes' : List UInt8) : Prop :=
  (bytes'.length : ℤ) = n ∧ bytes'.take bytes.length = bytes.take n.toNat

/-- The blocks that the server gives to a file of this many bytes: what they take, and never
none. -/
def bloquesPara (largo : ℕ) : ℕ := max 1 ((largo + 4095) / 4096)

/-- The table of the nodes, and the free blocks that the server counts. -/
structure Vista where
  tabla : Tabla
  libres : ℤ

namespace Tabla

/-- The bytes that a node holds. -/
def bytes (t : Tabla) (k : ℕ) : Option (List UInt8) := (t k).bind Entry.data

/-- The directory of a path. -/
def madre (t : Tabla) (path : Ruta) : Option ℕ :=
  t.resolve cantidadNodos (componentes path.cola).dropLast

/-- A creation: what the node holds, and the answer when the table is full. -/
inductive Crea (t : Tabla) (path : Ruta) (datos : Option (List UInt8)) (lleno : ℤ) :
    ℤ → Tabla → Prop
  | existe : t.nodo path ≠ none → Crea t path datos lleno 1 t
  | sinMadre : t.nodo path = none → t.madre path = none → Crea t path datos lleno 1 t
  | lleno : t.nodo path = none → t.madre path ≠ none → (∀ i < cantidadNodos, t i ≠ none) →
      Crea t path datos lleno lleno t
  | nace {q i : ℕ} : t.nodo path = none → t.madre path = some q →
      IsLeast {i | i < cantidadNodos ∧ t i = none} i →
      Crea t path datos lleno 0 (t.put i ⟨q, path.nombre, datos⟩)

/-- Another name. -/
inductive Mueve (t : Tabla) (viejo nuevo : Ruta) : ℤ → Tabla → Prop
  | falta : t.nodo viejo = none → Mueve t viejo nuevo (-1) t
  | mueve {k q : ℕ} : t.nodo viejo = some (k + 1) → t.madre nuevo = some q →
      Mueve t viejo nuevo 0 (t.move k q nuevo.nombre)

/-- The removal of a node without children. -/
inductive Quita (t : Tabla) (path : Ruta) : ℤ → Tabla → Prop
  | falta : t.nodo path = none → Quita t path (-1) t
  | conHijos {k j : ℕ} {e : Nodo} : t.nodo path = some (k + 1) → t j = some e →
      e.father = k + 1 → Quita t path (-1) t
  | quita {k : ℕ} : t.nodo path = some (k + 1) → (∀ j e, t j = some e → e.father ≠ k + 1) →
      Quita t path 0 (t.erase {k})

/-- The removal of a node and of what is below it. -/
inductive Poda (t : Tabla) (path : Ruta) : ℤ → Tabla → Prop
  | falta : t.nodo path = none → Poda t path (-1) t
  | poda {k : ℕ} : t.nodo path = some (k + 1) →
      Poda t path 0 (t.erase {j | t.Below (· = none) (k + 1) j ∨ j = k})

/-- A read: the bytes from the offset on, as many as there are. -/
inductive Lee (t : Tabla) (path : Ruta) (size offset : ℤ) : ℤ → List UInt8 → Prop
  | falta : t.nodo path = none → Lee t path size offset (-1) []
  | lee {k : ℕ} {e : Nodo} {bytes : List UInt8} : t.nodo path = some (k + 1) → t k = some e →
      e.data = some bytes → Lee t path size offset
        ((bytes.drop offset.toNat).take size.toNat).length
        ((bytes.drop offset.toNat).take size.toNat)

/-- The names of the children of a node, with a `;` for every node of the table. -/
def listado (t : Tabla) (q : Option ℕ) : List UInt8 :=
  (List.range cantidadNodos).flatMap fun i : ℕ =>
    ((t i).elim [] fun e => if some e.father = q then e.name else []) ++ [59]

/-- The attributes that the reply gives for a node, but for its dates. -/
def Atributos (e : Nodo) (a : Sac.Atributos) : Prop :=
  e.data.elim (a.mode = modoDirectorio ∧ a.nlink = 2 ∧ a.size = 4096)
    fun bytes => a.mode = modoArchivo ∧ a.nlink = 1 ∧ a.size = bytes.length

/-- The answer to a request for attributes. -/
inductive Describe (t : Tabla) (basura : ℕ → UInt8) (ahora : ℕ) (path : Ruta) :
    List (List UInt8) → Prop
  | falta {mensaje : List UInt8} : t.nodo path = none → bufferError basura = some mensaje →
      Describe t basura ahora path [mensaje]
  | raiz {mensaje : List UInt8} : t.nodo path = some 0 → bufferRaiz basura = some mensaje →
      Describe t basura ahora path [mensaje]
  | nodo {k : ℕ} {e : Nodo} {a : Sac.Atributos} {mensaje : List UInt8} :
      t.nodo path = some (k + 1) → t k = some e → Atributos e a → a.atime = ahora →
      bufferAtributos basura a = some mensaje → Describe t basura ahora path [mensaje]

end Tabla

namespace Vista

/-- A write: all the bytes, when blocks are counted as free or the file has enough of them; and if
not, those that fit in the blocks of the file, with the answer -1. -/
inductive Escribe (v : Vista) (path : Ruta) (offset : ℤ) (buf : List UInt8) : ℤ → Tabla → Prop
  | escribe {k : ℕ} {e : Nodo} {bytes : List UInt8} : v.tabla.nodo path = some (k + 1) →
      v.tabla k = some e → e.data = some bytes →
      v.libres ≠ 0 ∨ offset + buf.length ≤ 4096 * bloquesPara bytes.length →
      Escribe v path offset buf buf.length
        (v.tabla.setData k (some (overwrite bytes offset.toNat buf)))
  | corta {k : ℕ} {e : Nodo} {bytes : List UInt8} : v.tabla.nodo path = some (k + 1) →
      v.tabla k = some e → e.data = some bytes → v.libres = 0 →
      4096 * bloquesPara bytes.length < offset + buf.length →
      Escribe v path offset buf (-1) (v.tabla.setData k (some (overwrite bytes offset.toNat
        (buf.take (4096 * bloquesPara bytes.length - offset).toNat))))

/-- What `darleEspacioNuevo` refuses to a file of `largo` bytes: the blocks that it counts are fewer
than the bytes past the last block, both as numbers without sign. -/
def Rechaza (v : Vista) (largo n : ℤ) : Prop :=
  largo < n ∧ unsigned (v.libres * 4096) < unsigned (n - largo - (4096 - largo % 4096))

/-- Another size, unless it is refused. What a file gets when it is made larger is not said, and the
size of a directory is not in the table. -/
inductive Trunca (v : Vista) (path : Ruta) (n : ℤ) : ℤ → Vista → Prop
  | invalido : n < 0 → Trunca v path n (-1) v
  | falta : 0 ≤ n → v.tabla.nodo path = none → Trunca v path n (-1) v
  | lleno {k : ℕ} {e : Nodo} {largo : ℤ} : 0 ≤ n → v.tabla.nodo path = some (k + 1) →
      v.tabla k = some e → (∀ bytes, e.data = some bytes → largo = bytes.length) →
      v.Rechaza largo n → Trunca v path n enospc v
  | carpeta {k : ℕ} {e : Nodo} : 0 ≤ n → v.tabla.nodo path = some (k + 1) → v.tabla k = some e →
      e.data = none → Trunca v path n 0 v
  | cambia {k : ℕ} {e : Nodo} {bytes bytes' : List UInt8} : 0 ≤ n →
      v.tabla.nodo path = some (k + 1) → v.tabla k = some e → e.data = some bytes →
      ¬ v.Rechaza bytes.length n → Conserva bytes n bytes' →
      Trunca v path n 0 ⟨v.tabla.setData k (some bytes'),
        v.libres + (bloquesPara bytes.length - bloquesPara n.toNat : ℕ)⟩

/-- A request, its answer and the table after it. The count of free blocks changes only when a file
is made shorter. -/
inductive Paso (basura : ℕ → UInt8) (v : Vista) : Peticion × Producto → Vista → Prop
  | create {ahora : ℕ} {path : Ruta} {res : ℤ} {t' : Tabla} :
      v.tabla.Crea path (some []) edquot res t' →
      Paso basura v (.create ahora path, .resultado res) ⟨t', v.libres⟩
  | mkdir {path : Ruta} {res : ℤ} {t' : Tabla} : v.tabla.Crea path none 1 res t' →
      Paso basura v (.mkdir path, .resultado res) ⟨t', v.libres⟩
  | write {ahora : ℕ} {path : Ruta} {offset : ℤ} {buf : List UInt8} {res : ℤ} {t' : Tabla} :
      v.Escribe path offset buf res t' →
      Paso basura v (.write ahora path offset buf, .resultado res) ⟨t', v.libres⟩
  | truncate {path : Ruta} {n res : ℤ} {v' : Vista} : v.Trunca path n res v' →
      Paso basura v (.truncate path n, .resultado res) v'
  | rename {viejo nuevo : Ruta} {res : ℤ} {t' : Tabla} : v.tabla.Mueve viejo nuevo res t' →
      Paso basura v (.rename viejo nuevo, .resultado res) ⟨t', v.libres⟩
  | unlink {path : Ruta} {res : ℤ} {t' : Tabla} : v.tabla.Quita path res t' →
      Paso basura v (.unlink path, .resultado res) ⟨t', v.libres⟩
  | rmdir {path : Ruta} {res : ℤ} {t' : Tabla} : v.tabla.Poda path res t' →
      Paso basura v (.rmdir path, .resultado res) ⟨t', v.libres⟩
  | read {path : Ruta} {size offset res : ℤ} {bytes : List UInt8} :
      v.tabla.Lee path size offset res bytes →
      Paso basura v (.read path size offset, .leido res bytes) v
  | readDir {path : Ruta} {mensaje : List UInt8} {error : List (List UInt8)} :
      (if v.tabla.nodo path = none then (bufferError basura).map ([·]) else some []) =
        some error →
      bufferReadDir basura (v.tabla.listado (v.tabla.nodo path)) = some mensaje →
      Paso basura v (.readDir path, .mensajes (error ++ [mensaje])) v
  | getAttr {ahora : ℕ} {path : Ruta} {enviados : List (List UInt8)} :
      v.tabla.Describe basura ahora path enviados →
      Paso basura v (.getAttr ahora path, .mensajes enviados) v

end Vista

/-! ## What a step can use of the table -/

theorem Tabla.Crea.desde {t t' : Tabla} {path : Ruta} {datos : Option (List UInt8)} {lleno res : ℤ}
    {n : ℕ} (h : t.Crea path datos lleno res t') (hn : n < cantidadNodos)
    (hlibres : ∀ k, n ≤ k → t k = none) {k : ℕ} (hk : n + 1 ≤ k) : t' k = none := by
  cases h with
  | existe _ => exact hlibres k (by omega)
  | sinMadre _ _ => exact hlibres k (by omega)
  | lleno _ _ _ => exact hlibres k (by omega)
  | nace _ _ hlibre =>
      have hle := hlibre.2 ⟨hn, hlibres n le_rfl⟩
      rw [Catalog.put, Function.update_of_ne (by omega)]
      exact hlibres k (by omega)

/-- A step takes at most one more node of the table, the first that is not in use. -/
theorem Vista.Paso.desde {basura : ℕ → UInt8} {v v' : Vista} {e : Peticion × Producto} {n : ℕ}
    (h : v.Paso basura e v') (hn : n < cantidadNodos) (hlibres : ∀ k, n ≤ k → v.tabla k = none) :
    ∀ k, n + 1 ≤ k → v'.tabla k = none := by
  intro k hk
  have hlibre : v.tabla k = none := hlibres k (by omega)
  have hdatos : ∀ (i : ℕ) (d : Option (List UInt8)), v.tabla.setData i d k = none := by
    intro i d
    rcases eq_or_ne k i with rfl | hne
    · rw [Catalog.setData, Function.update_self, hlibre, Option.map_none]
    · rw [Catalog.setData, Function.update_of_ne hne, hlibre]
  have hnombre : ∀ (i q : ℕ) (c : List UInt8), v.tabla.move i q c k = none := by
    intro i q c
    rcases eq_or_ne k i with rfl | hne
    · rw [Catalog.move, Function.update_self, hlibre, Option.map_none]
    · rw [Catalog.move, Function.update_of_ne hne, hlibre]
  have hsin : ∀ D : Set ℕ, v.tabla.erase D k = none := by
    intro D
    rw [Catalog.erase, hlibre, ite_self]
  cases h with
  | create h => exact h.desde hn hlibres hk
  | mkdir h => exact h.desde hn hlibres hk
  | write h =>
      cases h with
      | escribe _ _ _ _ => exact hdatos _ _
      | corta _ _ _ _ _ => exact hdatos _ _
  | truncate h =>
      cases h with
      | invalido _ => exact hlibre
      | falta _ _ => exact hlibre
      | lleno _ _ _ _ _ => exact hlibre
      | carpeta _ _ _ _ => exact hlibre
      | cambia _ _ _ _ _ _ => exact hdatos _ _
  | rename h =>
      cases h with
      | falta _ => exact hlibre
      | mueve _ _ => exact hnombre _ _ _
  | unlink h =>
      cases h with
      | falta _ => exact hlibre
      | conHijos _ _ _ => exact hlibre
      | quita _ _ => exact hsin _
  | rmdir h =>
      cases h with
      | falta _ => exact hlibre
      | poda _ => exact hsin _
  | read _ => exact hlibre
  | readDir _ _ => exact hlibre
  | getAttr _ => exact hlibre

end Sac
