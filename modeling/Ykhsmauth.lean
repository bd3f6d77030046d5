import Ykhsmauth.Basic
import Ykhsmauth.Apdu
import Ykhsmauth.Tlv
import Ykhsmauth.Transport
import Ykhsmauth.Commands
import Ykhsmauth.ListKeys
import Ykhsmauth.Frames
import Ykhsmauth.Errors
import Ykhsmauth.Session
import Ykhsmauth.Walk
import Ykhsmauth.Cards
