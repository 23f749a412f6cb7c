import TpSo.Osada.Format
import TpSo.Base.Chain
import TpSo.Osada.Bitmap
import TpSo.Osada.BienFormado
import TpSo.Osada.Bloques
import TpSo.Osada.Editar
import TpSo.Osada.Truncar
import TpSo.Osada.Ruta
import TpSo.Osada.Tabla
import TpSo.Osada.Funciones
import TpSo.Osada.Efectos
import TpSo.Base.Run
import TpSo.Osada.Corridas
import TpSo.Osada.Formateo
import TpSo.Osada.Aislamiento
import TpSo.Osada.FueraDeLugar
import TpSo.Base.Forest
import TpSo.Osada.Arbol
import TpSo.Base.Optimistic
import TpSo.Osada.DosPasos
import TpSo.Base.Threads
import TpSo.Osada.Altas
import TpSo.Base.Program
import TpSo.Osada.Ordenes
import TpSo.Osada.Cuentas
import TpSo.Osada.Crecidas
import TpSo.Entrenador.Aventura
import TpSo.Osada.Leer
import TpSo.Entrenador.Objetivos
import TpSo.Mapa.Deteccion
import TpSo.Mapa.Batalla
import TpSo.Mapa.Planificador
import TpSo.Mapa.Turnos
import TpSo.Mapa.Quantum
import TpSo.Mapa.Almacen
import TpSo.Mapa.Archivos
import TpSo.Mapa.Recarga
import TpSo.Base.Locks
import TpSo.Mapa.Hilos
import TpSo.Base.Handshake
import TpSo.Mapa.Dibujo
import TpSo.Mapa.Cerrojos
import TpSo.Base.Bytes
import TpSo.Base.Dialogue
import TpSo.Rocket.NetworkHandler
import TpSo.Entrenador.Mensajes
import TpSo.Mapa.Mensajes
import TpSo.Base.Allocation
import TpSo.Mapa.Interbloqueo
import TpSo.Osada.Consultas
import TpSo.PokeDex.Cliente
import TpSo.PokeDex.Servidor
import TpSo.Base.Overwrite
import TpSo.Osada.Datos
import TpSo.Osada.Contenidos
import TpSo.Base.Walk
import TpSo.Osada.Rutas
import TpSo.Osada.Resultados
import TpSo.Osada.Nombres
import TpSo.Osada.Espacio
import TpSo.Base.Pool
import TpSo.Osada.MapaDeBits
import TpSo.PokeDex.Conversacion
import TpSo.Mapa.Partida
import TpSo.Mapa.Bajas
import TpSo.Mapa.Listas
import TpSo.Mapa.Puntos
import TpSo.Base.Text
import TpSo.Rocket.Tiempo
import TpSo.Osada.Regiones
import TpSo.Mapa.Distancias
import TpSo.Mapa.Desbloqueo
import TpSo.Rocket.Cortes
import TpSo.Entrenador.HojaDeViaje
import TpSo.Osada.Borrados
import TpSo.Osada.Listado
import TpSo.PokeDex.Listado
import TpSo.Mapa.Unidades
import TpSo.Osada.Entradas
import TpSo.Entrenador.Bloqueos
import TpSo.Osada.Cache
import TpSo.Osada.Historias
import TpSo.Osada.Lecturas
import TpSo.PokeDex.Sesiones
import TpSo.Base.Buckets
import TpSo.Base.Words
import TpSo.Commons.Diccionario
import TpSo.Commons.Texto
import TpSo.Commons.Config
import TpSo.Commons.Listas
import TpSo.Commons.Llamadas
import TpSo.Mapa.Metadata
import TpSo.Entrenador.Metadata
import TpSo.Base.RwLocks
import TpSo.Osada.Cerrojos
import TpSo.Osada.Vueltas
import TpSo.PokeDex.Atencion
import TpSo.PokeDex.Cerrojos
import TpSo.Juego.Jugadores
import TpSo.Juego.Sintonia
