import MsmnilePkg.Lib.ByteMem
import MsmnilePkg.Lib.Loop
import MsmnilePkg.Lib.WordScan
import MsmnilePkg.Lib.A64.Exec
import MsmnilePkg.Lib.A64.Run
import MsmnilePkg.KernelErrataPatcher.ShellCode
import MsmnilePkg.KernelErrataPatcher.Reference
import MsmnilePkg.KernelErrataPatcher.ScanBlock
import MsmnilePkg.KernelErrataPatcher.Psci
import MsmnilePkg.KernelErrataPatcher.Irm
import MsmnilePkg.KernelErrataPatcher.BlockRun
import MsmnilePkg.KernelErrataPatcher.ActlrAmcnt
import MsmnilePkg.KernelErrataPatcher.Drift
import MsmnilePkg.KernelErrataPatcher.ModuleWalk
import MsmnilePkg.KernelErrataPatcher.RegisterAccess
import MsmnilePkg.KernelErrataPatcher.Trampoline
import MsmnilePkg.KernelErrataPatcher.IrmPair
import MsmnilePkg.Efi
import MsmnilePkg.Lib.LittleEndian
import MsmnilePkg.Lib.StoreLog
import MsmnilePkg.WheaEarlyStorage.Storage
import MsmnilePkg.WheaEarlyStorage.Calls
import MsmnilePkg.WheaEarlyStorage.Records
import MsmnilePkg.WheaEarlyStorage.AddRecord
import MsmnilePkg.Lib.Ranges
import MsmnilePkg.RamPartition.RamPartitionDxe
import MsmnilePkg.RamPartition.AddedMemory
import MsmnilePkg.FrameBuffer.Console
import MsmnilePkg.FrameBuffer.Pixels
import MsmnilePkg.FrameBuffer.Cursor
import MsmnilePkg.FrameBuffer.Writes
import MsmnilePkg.KernelErrataPatcher.FindPattern
import MsmnilePkg.KernelErrataPatcher.ActlrFixup
import MsmnilePkg.KernelErrataPatcher.IrmSearch
import MsmnilePkg.KernelErrataPatcher.WinloadBase
import MsmnilePkg.KernelErrataPatcher.ExitBootServices
import MsmnilePkg.KernelErrataPatcher.ReferenceAccess
import MsmnilePkg.KernelErrataPatcher.ShellCodeRun
import MsmnilePkg.KernelErrataPatcher.TransferCall
import MsmnilePkg.KernelErrataPatcher.ProtectedRange
import MsmnilePkg.KernelErrataPatcher.IrmSend
import MsmnilePkg.Lib.RingLog
import MsmnilePkg.SerialPort.InMemory
import MsmnilePkg.Lib.Transit
import MsmnilePkg.SerialPort.GeniRead
import MsmnilePkg.SerialPort.GeniWrite
import MsmnilePkg.Lib.History
import MsmnilePkg.SecureBoot.Provisioning
import MsmnilePkg.RamPartition.Additions
import MsmnilePkg.EarlyGraphics.MsEarlyGraphicsLib
import MsmnilePkg.Lib.FirstMax
import MsmnilePkg.WheaEarlyStorage.DeviceAccess
import MsmnilePkg.EarlyGraphics.FrameBufferInfo
import MsmnilePkg.Lib.StringArea
import MsmnilePkg.SmBiosTable.LogSmbiosData
import MsmnilePkg.AslUpdate.DxeAslUpdateLib
import MsmnilePkg.AslUpdate.NameUpdate
import MsmnilePkg.SmBiosTable.MemoryRecords
import MsmnilePkg.SmBiosTable.SystemMemory
import MsmnilePkg.BootShim.CopyLoop
import MsmnilePkg.FrameBuffer.Interrupts
import MsmnilePkg.FrameBuffer.Glyph
import MsmnilePkg.FrameBuffer.Terminal
import MsmnilePkg.Lib.Places
import MsmnilePkg.VirtualRealTimeClock.LibGetTime
import MsmnilePkg.DeviceBootManager.MsPreBootChecks
import MsmnilePkg.PlatformSecure.UserPhysicalPresent
import MsmnilePkg.Lib.Reconcile
import MsmnilePkg.BootOptions.LoadOptions
import MsmnilePkg.BootOptions.RegisterDefaults
import MsmnilePkg.SerialPort.Sdm845
import MsmnilePkg.SerialPort.Sdm845Read
import MsmnilePkg.Lib.RecordArea
import MsmnilePkg.AuthVariable.Format
import MsmnilePkg.AuthVariable.CertDb
import MsmnilePkg.AuthVariable.SignatureList
import MsmnilePkg.AuthVariable.Services
import MsmnilePkg.AuthVariable.CertDbCalls
import MsmnilePkg.AuthVariable.Verify
import MsmnilePkg.AuthVariable.ProcessVariable
import MsmnilePkg.AuthVariable.Writes
import MsmnilePkg.AuthVariable.Authorization
import MsmnilePkg.AuthVariable.Runs
import MsmnilePkg.AuthVariable.CertMap
import MsmnilePkg.AuthVariable.PrivateVariables
import MsmnilePkg.AuthVariable.PrivateRuns
import MsmnilePkg.AuthVariable.CertDbCleaning
import MsmnilePkg.AuthVariable.Initialize
import MsmnilePkg.AuthVariable.Boots
import MsmnilePkg.AuthVariable.PlatformMode
import MsmnilePkg.AuthVariable.SignatureDatabases
import MsmnilePkg.Lib.Limbs
import MsmnilePkg.Lib.Montgomery
import MsmnilePkg.Lib.BigEndian
import MsmnilePkg.Avb.Rsa
import MsmnilePkg.Avb.MontMul
import MsmnilePkg.Avb.RsaVerify
import MsmnilePkg.Lib.BlockHash
import MsmnilePkg.Avb.Sha512
import MsmnilePkg.Avb.VBMetaImage
