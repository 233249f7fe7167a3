import Linuse.Wire.LittleEndian
import Linuse.Wire.Buffer
import Linuse.Wire.Reader
import Linuse.Transition.Run
import Linuse.Transition.Fallible
import Linuse.Transition.Locks
import Linuse.Collections.Dictionary
import Linuse.Collections.Placement
import Linuse.Collections.Moves
import Linuse.Suse.Estado
import Linuse.Suse.Metricas
import Linuse.Suse.Manejadores
import Linuse.Suse.Ubicacion
import Linuse.Suse.Efectos
import Linuse.Suse.Coherencia
import Linuse.Suse.Movimientos
import Linuse.Suse.Liberacion
import Linuse.Suse.Eleccion
import Linuse.Suse.Ejecucion
import Linuse.Suse.Despertar
import Linuse.Suse.Vigilancia
import Linuse.Suse.DespertarPerdido
import Linuse.Suse.SinIntercalar
import Linuse.Suse.Secciones
import Linuse.Suse.EsperaCircular
import Linuse.Suse.Limpieza
import Linuse.Suse.Conservacion
import Linuse.Suse.Clientes
import Linuse.Suse.Admision
import Linuse.Suse.Peticiones
import Linuse.Suse.Recursos
import Linuse.Suse.Semaforos
import Linuse.Suse.Multiprogramacion
import Linuse.Suse.Independencia
import Linuse.Suse.Menor
import Linuse.Suse.Visitas
import Linuse.Suse.Bloqueados
import Linuse.Suse.Cierre
import Linuse.Suse.Rafagas
import Linuse.Suse.ColaNew
import Linuse.Muse.Pedidos
import Linuse.Memory.Flat
import Linuse.Transition.Sequential
import Linuse.Sac.Disco
import Linuse.Sac.Rutas
import Linuse.Sac.Bloques
import Linuse.Sac.Operaciones
import Linuse.Sac.Consultas
import Linuse.Sac.Peticiones
import Linuse.Sac.Cerrojos
import Linuse.Sac.Borrado
import Linuse.Sac.Errores
import Linuse.Sac.Respuestas
import Linuse.Sac.Encuadre
import Linuse.Sac.Recorrido
import Linuse.Sac.Bitmap
import Linuse.Sac.Campos
import Linuse.Sac.Altas
import Linuse.Sac.Mapeo
import Linuse.Sac.Crecimiento
import Linuse.Transition.Loop
import Linuse.Sac.Escritura
import Linuse.Sac.Mapa
import Linuse.Sac.Lectura
import Linuse.Sac.Recorte
import Linuse.Sac.Subarbol
import Linuse.Sac.Ampliacion
import Linuse.Sac.Agrandado
import Linuse.Transition.Marked
import Linuse.Muse.Estado
import Linuse.Muse.Frames
import Linuse.Muse.Reloj
import Linuse.Muse.Segmentos
import Linuse.Muse.Accesos
import Linuse.Muse.Servidor
import Linuse.Collections.Assignment
import Linuse.Muse.Invariantes
import Linuse.Muse.Conservacion
import Linuse.Muse.Intercambio
import Linuse.Muse.Alojamiento
import Linuse.Muse.Cierre
import Linuse.Muse.Lectura
import Linuse.Muse.Mapeo
import Linuse.Muse.Asignaciones
import Linuse.Muse.Duenio
import Linuse.Muse.Segmentacion
import Linuse.Muse.Obtencion
import Linuse.Muse.Sincronizacion
import Linuse.Muse.Vuelta
import Linuse.Muse.Medidas
import Linuse.Muse.Liberacion
import Linuse.Collections.Tiling
import Linuse.Muse.Embaldosado
import Linuse.Muse.Cabecera
import Linuse.Muse.Compactacion
import Linuse.Memory.Copy
import Linuse.Muse.Copia
import Linuse.Wire.Tokens
import Linuse.Sac.Listado
import Linuse.Sac.Asignacion
import Linuse.Sac.Contador
import Linuse.Collections.Forest
import Linuse.Sac.Arbol
import Linuse.Sac.Rama
import Linuse.Collections.Overwrite
import Linuse.Sac.Volcado
import Linuse.Sac.Ideal
import Linuse.Sac.Sobrescritura
import Linuse.Collections.Ownership
import Linuse.Collections.Catalog
import Linuse.Transition.Simulation
import Linuse.Sac.Coherencia
import Linuse.Sac.Tabla
import Linuse.Sac.Toques
import Linuse.Sac.Abstracto
import Linuse.Sac.Cambios
import Linuse.Sac.Evaluacion
import Linuse.Sac.Simulacion
import Linuse.Sac.Historia
import Linuse.Sac.Archivos
import Linuse.Sac.Envios
import Linuse.Sac.Red
import Linuse.Wire.Int32
import Linuse.Suse.Censo
import Linuse.Hilolay.Biblioteca
import Linuse.Hilolay.Mensajes
import Linuse.Hilolay.Sistema
import Linuse.Hilolay.Acuerdo
import Linuse.Suse.Terminados
import Linuse.Hilolay.Vista
import Linuse.Hilolay.Cierres
import Linuse.Hilolay.Esperas
