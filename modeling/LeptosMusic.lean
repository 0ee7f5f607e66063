import LeptosMusic.DeviceCryptoContract
import LeptosMusic.CurrentItem
import LeptosMusic.Restarts
import LeptosMusic.PlaylistPages
import LeptosMusic.TargetIndex
import LeptosMusic.AccessTokens
import LeptosMusic.TokenPersistence
import LeptosMusic.InnerTubeSession
import LeptosMusic.RequestGate
import LeptosMusic.Library.Unicode
import LeptosMusic.UnpaddedText
import LeptosMusic.PlaybackRate
import LeptosMusic.DeviceRegistration
import LeptosMusic.Navigation
import LeptosMusic.TokenBytes
import LeptosMusic.TokenUpdates
import LeptosMusic.UpdateContract
import LeptosMusic.AccountSwitch
import LeptosMusic.RefreshBound
import LeptosMusic.SessionThreads
import LeptosMusic.SessionAccounts
import LeptosMusic.SessionLedger
import LeptosMusic.SingleSend
import LeptosMusic.StrandedSessions
import LeptosMusic.Uninterrupted
import LeptosMusic.Library.Grids
import LeptosMusic.MetalDispatch
import LeptosMusic.DeviceAuthHeader
import LeptosMusic.TruncationAssertion
import LeptosMusic.PageMerge
import LeptosMusic.EndOfItem
import LeptosMusic.Library.FormUrlencoded
import LeptosMusic.FormEncoding
import LeptosMusic.TableRows
import LeptosMusic.LatestSearch
import LeptosMusic.CodedWrites
import LeptosMusic.MessageRequests
import LeptosMusic.DeviceIdentity
