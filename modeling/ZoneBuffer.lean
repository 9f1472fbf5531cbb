import ZoneBuffer.Lib.Machine
import ZoneBuffer.Buffer.Residence
import ZoneBuffer.Buffer.Levels
import ZoneBuffer.Buffer.Recency
import ZoneBuffer.Buffer.Elements
import ZoneBuffer.Buffer.DirtyFlags
import ZoneBuffer.Buffer.Distance
import ZoneBuffer.Buffer.Drives
import ZoneBuffer.Zone.Interleaving
import ZoneBuffer.Zone.Counting
import ZoneBuffer.Zone.Detectors
import ZoneBuffer.Zone.Recycling
import ZoneBuffer.Zone.Survival
import ZoneBuffer.Zone.Reclaim
import ZoneBuffer.Structure.Sequence
import ZoneBuffer.Structure.HashTable
import ZoneBuffer.Cuckoo.Runs
import ZoneBuffer.Buffer.Competitive
import ZoneBuffer.Driver.Bench
