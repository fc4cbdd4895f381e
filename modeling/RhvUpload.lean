import RhvUpload.Basic
import RhvUpload.Wire
import RhvUpload.BlockIO.Read
import RhvUpload.BlockIO.Write
import RhvUpload.BlockIO.Refinement
import RhvUpload.Pool.State
import RhvUpload.Pool.Invariant
import RhvUpload.Pool.Deadlock
import RhvUpload.Lifecycle.Remote
import RhvUpload.Lifecycle.Open
import RhvUpload.Lifecycle.Finalize
import RhvUpload.Lifecycle.Close
import RhvUpload.Parallel.State
import RhvUpload.Parallel.Linearizable
import RhvUpload.Parallel.Complete
import RhvUpload.Parallel.Flush
import RhvUpload.Lifecycle.Session
