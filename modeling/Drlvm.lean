import Drlvm.Checked
import Drlvm.Sspace.Layout
import Drlvm.Sspace.ColorTable
import Drlvm.Sspace.SlotScan
import Drlvm.Sspace.Chunk
import Drlvm.Sspace.Allocation
import Drlvm.Sspace.Run
import Drlvm.Sspace.Reuse
import Drlvm.Sspace.Enumeration
import Drlvm.Sspace.FreshChunk
import Drlvm.Sspace.AllocateBlack
import Drlvm.Sspace.FreeList
import Drlvm.Sspace.MarkRace
import Drlvm.Sspace.Writes
import Drlvm.Sspace.Unsigned
import Drlvm.Jni.ArrayRegion
import Drlvm.Jni.ArrayElements
import Drlvm.Jni.NewObjectArray
import Drlvm.ClassSupport.InlineInfo
