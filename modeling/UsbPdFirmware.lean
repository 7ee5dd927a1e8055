import UsbPdFirmware.ReceiveMailbox
import UsbPdFirmware.TransmitResults
import UsbPdFirmware.FifoReaders
import UsbPdFirmware.StoredMessageId
import UsbPdFirmware.CounterReset
import UsbPdFirmware.BoundedRetry
import UsbPdFirmware.PolicyEngineTurns
import UsbPdFirmware.GivingUp
import UsbPdFirmware.ConfigStoreRuns
import UsbPdFirmware.PowerLoss
import UsbPdFirmware.ConsoleText
import UsbPdFirmware.ConfigRanges
import UsbPdFirmware.Negotiation
import UsbPdFirmware.OutputControl
import UsbPdFirmware.BlockOwners
import UsbPdFirmware.StalePointers
import UsbPdFirmware.RequestedObject
import UsbPdFirmware.RequestedPower
import UsbPdFirmware.CurrentDivisor
import UsbPdFirmware.NullPointers
import UsbPdFirmware.HeaderTemplate
import UsbPdFirmware.ExtendedMessages
import UsbPdFirmware.SessionMail
import UsbPdFirmware.SequenceStart
import UsbPdFirmware.AdvertisedPower
import UsbPdFirmware.RequestRounds
import UsbPdFirmware.StandbyShortcut
import UsbPdFirmware.ReceiveFilter
import UsbPdFirmware.ByteStreams
import UsbPdFirmware.FifoBytes
import UsbPdFirmware.TransmitNumbers
import UsbPdFirmware.FailedReads
import UsbPdFirmware.ProfileButton
import UsbPdFirmware.LeastCurrent
import UsbPdFirmware.RangeSearch
import UsbPdFirmware.LineTokens
import UsbPdFirmware.LineInput
import UsbPdFirmware.CommandEffects
import UsbPdFirmware.DecimalDigits
import UsbPdFirmware.PrintedConfig
import UsbPdFirmware.ReenteredConfig
import UsbPdFirmware.KeyStrokes
import UsbPdFirmware.SerialConsole
import UsbPdFirmware.ConfigTransfer
import UsbPdFirmware.SequenceNumbers
import UsbPdFirmware.BusSections
import UsbPdFirmware.FusbDriver
import UsbPdFirmware.MessageLink
import UsbPdFirmware.FlashWear
import UsbPdFirmware.BoundedWork
import UsbPdFirmware.PrintedSource
import UsbPdFirmware.SinkPolicy
import UsbPdFirmware.Conversation
import UsbPdFirmware.TypecFallback
import UsbPdFirmware.CurrentCalls
